import LineShell.Files.Tree
import Mathlib.Tactic.Common

/-!
# Walks through links

A walk goes from name to name, and through the target of a link before it goes on.  What comes of
a name does not depend on the names behind it, nor on how many links may still be gone through, so
a walk can be cut anywhere, and the number of links decides no more than whether it is enough.

* `FileTree.turn` — what comes of one name; `FileTree.walk_cons` says that a walk is made of that.
* `FileTree.walk_induct` — induction along a walk.
* `FileTree.walk_front` — a front part of a walk fails, or leaves the rest to be walked.
* `FileTree.walk_of_links` — another number of links gives the same, or is not enough.
* `FileTree.Ends` — what a name in a directory leads to, through any number of links;
  `FileTree.stat_name` is about a name in the current directory that is no link.
* **`FileTree.stat_join`** — a path into a directory leads to what its name leads to, within limits.
-/

namespace LineShell

namespace FileTree

/-! ## One name -/

/-- What comes of a name. -/
inductive Turn where
  | fails (e : FileError)
  | enters (next : Place)
  /-- The name is that of a link. -/
  | follows (target : Bytes)

/-- What comes of a name at a place. -/
def turn (t : FileTree) (here : Place) (name : Bytes) : Turn :=
  match t.node? here with
  | some (.directory rights) =>
    if name = [] then .enters here
    else if !rights.ownerMay .execute then .fails .permissionDenied
    else if name = Path.dot then .enters here
    else if name = Path.dotDot then .enters here.dropLast
    else if maxName < name.length then .fails .nameTooLong
    else match t.node? (here ++ [name]) with
      | none => .fails .notFound
      | some (.link target) => .follows target
      | some _ => .enters (here ++ [name])
  | some _ => .fails .notDirectory
  | none => .fails .notFound

variable {t : FileTree} {links : Nat} {here place : Place} {name : Bytes} {names rest : List Bytes}

@[simp] lemma walk_nil : t.walk .follow links here [] = .ok here := by
  rw [walk]

/-- A walk goes on as its first name says. -/
lemma walk_cons : t.walk .follow links here (name :: rest) = match t.turn here name with
    | .fails e => .error e
    | .enters next => t.walk .follow links next rest
    | .follows target => match links with
      | 0 => .error .tooManyLinks
      | links + 1 => t.walk .follow links (origin here target) (Path.steps target ++ rest) := by
  rw [walk]
  cases hnode : t.node? here with
  | none => simp [turn, hnode]
  | some node =>
      cases node with
      | file content rights program => simp [turn, hnode]
      | link target => simp [turn, hnode]
      | directory rights =>
          have hkeep : ¬ (rest = [] ∧ LastLink.follow = .keep) := by simp
          simp only [turn, hnode, if_neg hkeep]
          split_ifs with hnil hrights hdot hdots hlong <;> try rfl
          cases hnext : t.node? (here ++ [name]) with
          | none => rfl
          | some next =>
              cases next with
              | link target => cases links <;> rfl
              | directory rights => rfl
              | file content rights program => rfl

/-- Induction along a walk. -/
lemma walk_induct {P : Nat → Place → List Bytes → Prop} (nil : ∀ links here, P links here [])
    (fails : ∀ links here name rest e, t.turn here name = .fails e → P links here (name :: rest))
    (enters : ∀ links here name rest next, t.turn here name = .enters next → P links next rest →
      P links here (name :: rest))
    (exhausted : ∀ here name rest target, t.turn here name = .follows target →
      P 0 here (name :: rest))
    (follows : ∀ links here name rest target, t.turn here name = .follows target →
      P links (origin here target) (Path.steps target ++ rest) →
      P (links + 1) here (name :: rest))
    (links : Nat) (here : Place) (names : List Bytes) : P links here names := by
  induction links using Nat.strongRecOn generalizing here names with
  | ind links ihlinks =>
      induction names generalizing here with
      | nil => exact nil links here
      | cons name rest ih =>
          cases hturn : t.turn here name with
          | fails e => exact fails links here name rest e hturn
          | enters next => exact enters links here name rest next hturn (ih next)
          | follows target =>
              cases links with
              | zero => exact exhausted here name rest target hturn
              | succ links =>
                  exact follows links here name rest target hturn
                    (ihlinks links (Nat.lt_succ_self links) _ _)

/-! ## Cutting a walk -/

/-- A front part of a walk fails whatever comes next, or it leads to a place from which the rest is
walked with the links that are left. -/
theorem walk_front (t : FileTree) (links : Nat) (here : Place) (names : List Bytes) :
    (∃ e, ∀ rest, t.walk .follow links here (names ++ rest) = .error e) ∨
      ∃ left place, left ≤ links ∧
        ∀ rest, t.walk .follow links here (names ++ rest) = t.walk .follow left place rest := by
  induction links, here, names using walk_induct (t := t) with
  | nil links here => exact .inr ⟨links, here, Nat.le_refl links, fun rest => rfl⟩
  | fails links here name rest e hturn =>
      refine .inl ⟨e, ?_⟩
      intro more
      rw [List.cons_append, walk_cons, hturn]
  | enters links here name rest next hturn ih =>
      simp only [List.cons_append, walk_cons, hturn]
      exact ih
  | exhausted here name rest target hturn =>
      refine .inl ⟨.tooManyLinks, ?_⟩
      intro more
      rw [List.cons_append, walk_cons, hturn]
  | follows links here name rest target hturn ih =>
      simp only [List.cons_append, walk_cons, hturn, ← List.append_assoc]
      rcases ih with hfails | ⟨left, place, hleft, hwalk⟩
      · exact .inl hfails
      · exact .inr ⟨left, place, Nat.le_succ_of_le hleft, hwalk⟩

/-- A walk goes on from where its front part ends. -/
lemma walk_append (h : t.walk .follow links here names = .ok place) :
    ∃ left ≤ links, ∀ rest,
      t.walk .follow links here (names ++ rest) = t.walk .follow left place rest := by
  rcases walk_front t links here names with ⟨e, hfails⟩ | ⟨left, next, hleft, hwalk⟩
  · have hnil := hfails []
    simp [h] at hnil
  · have hnil := hwalk []
    simp only [List.append_nil, h, walk_nil, Except.ok.injEq] at hnil
    subst hnil
    exact ⟨left, hleft, hwalk⟩

/-- An empty name asks for a directory, as any name behind it does. -/
lemma walk_nil_cons : t.walk .follow links here ([] :: name :: rest)
    = t.walk .follow links here (name :: rest) := by
  rw [walk_cons]
  cases hnode : t.node? here with
  | none => simp [walk_cons, turn, hnode]
  | some node => cases node <;> simp [walk_cons, turn, hnode]

/-! ## The number of links -/

/-- With another number of links a walk ends at the same place, or they are not enough. -/
theorem walk_of_links (h : t.walk .follow links here names = .ok place) (others : Nat) :
    t.walk .follow others here names = .ok place ∨
      t.walk .follow others here names = .error .tooManyLinks := by
  induction links, here, names using walk_induct (t := t) generalizing others with
  | nil links here => exact .inl (by simpa using h)
  | fails links here name rest e hturn => simp [walk_cons, hturn] at h
  | enters links here name rest next hturn ih =>
      simp only [walk_cons, hturn] at h ⊢
      exact ih h others
  | exhausted here name rest target hturn => simp [walk_cons, hturn] at h
  | follows links here name rest target hturn ih =>
      simp only [walk_cons, hturn] at h ⊢
      cases others with
      | zero => exact .inr rfl
      | succ others => exact ih h others

end FileTree

/-! ## Names in directories -/

namespace Path

lemma names_nil : names [] = [] := rfl

lemma names_append_slash (front back : Bytes) :
    names (front ++ slash :: back) = names front ++ names back := by
  rw [names, List.splitOn_append_cons_self, List.filter_append]
  rfl

end Path

namespace FileTree

variable {t : FileTree} {links : Nat} {here place : Place} {name : Bytes} {rest : List Bytes}

/-- A byte string can be the name of a file. -/
structure IsFileName (name : Bytes) : Prop where
  ne_nil : name ≠ []
  noSlash : Path.slash ∉ name
  noNul : 0 ∉ name
  ne_dot : name ≠ Path.dot
  ne_dotDot : name ≠ Path.dotDot
  short : name.length ≤ maxName

section join

variable {cwd : Place} {dir : Bytes}

lemma names_name (hname : IsFileName name) : Path.names name = [name] := by
  have hone : name.splitOn Path.slash = [name] := by
    refine List.splitOn_eq_singleton ?_
    exact hname.noSlash
  simp [Path.names, hone, hname.ne_nil]

lemma isAbsolute_name (hname : IsFileName name) : Path.isAbsolute name = false := by
  have hhead : name.head? ≠ some Path.slash := fun h => hname.noSlash (List.mem_of_head? h)
  simpa [Path.isAbsolute] using hhead

/-- A path that ends with a name does not ask for a directory. -/
lemma getLast?_append_name (front : Bytes) (hname : IsFileName name) :
    (front ++ name).getLast? ≠ some Path.slash := by
  intro h
  rw [List.getLast?_append, List.getLast?_eq_some_getLast hname.ne_nil, Option.some_or] at h
  exact hname.noSlash (Option.some.inj h ▸ List.getLast_mem hname.ne_nil)

lemma steps_name (hname : IsFileName name) : Path.steps name = [name] := by
  have hlast : name.getLast? ≠ some Path.slash := getLast?_append_name [] hname
  rw [Path.steps, if_neg hlast, names_name hname, List.append_nil]

lemma join_name (dir : Bytes) (hname : IsFileName name) : Path.join dir name =
    if dir = [] ∨ dir.getLast? = some Path.slash then dir ++ name
    else dir ++ Path.slash :: name := by
  rw [Path.join, isAbsolute_name hname, if_neg Bool.false_ne_true]

/-- A name stands behind a slash, and in front of that are the names of the directory. -/
lemma join_eq (hdir : dir ≠ []) (hname : IsFileName name) :
    ∃ front, Path.join dir name = front ++ Path.slash :: name ∧
      Path.names front = Path.names dir := by
  by_cases hlast : dir.getLast? = some Path.slash
  · obtain ⟨front, rfl⟩ := List.getLast?_eq_some_iff.1 hlast
    refine ⟨front, ?_, ?_⟩
    · simp [join_name _ hname]
    · simp [Path.names_append_slash front [], Path.names_nil]
  · refine ⟨dir, ?_, rfl⟩
    simp [join_name _ hname, hdir, hlast]

lemma steps_join (hdir : dir ≠ []) (hname : IsFileName name) :
    Path.steps (Path.join dir name) = Path.names dir ++ [name] := by
  obtain ⟨front, hjoin, hfront⟩ := join_eq hdir hname
  have hlast : (Path.join dir name).getLast? ≠ some Path.slash := by
    rw [hjoin, List.append_cons]
    exact getLast?_append_name _ hname
  rw [Path.steps, if_neg hlast, hjoin, Path.names_append_slash, hfront, names_name hname,
    List.append_nil]

lemma isAbsolute_join (hdir : dir ≠ []) (hname : IsFileName name) :
    Path.isAbsolute (Path.join dir name) = Path.isAbsolute dir := by
  cases dir with
  | nil => exact absurd rfl hdir
  | cons b dir =>
      rw [join_name _ hname]
      split <;> rfl

lemma length_le_join (dir : Bytes) (hname : IsFileName name) :
    dir.length + name.length ≤ (Path.join dir name).length := by
  rw [join_name dir hname]
  split <;> simp

lemma checkPath_eq_ok {path : Bytes} :
    checkPath path = .ok () ↔ 0 ∉ path ∧ path ≠ [] ∧ path.length ≤ maxPath := by
  by_cases hnul : 0 ∈ path
  · simp [checkPath, hnul]
  · by_cases hnil : path = []
    · simp [checkPath, hnil]
    · by_cases hlong : maxPath < path.length
      · simp [checkPath, hnul, hnil, hlong]
      · simp [checkPath, hnul, hnil, hlong, Nat.not_lt.1 hlong]

/-- A path into a directory is a path unless it is too long. -/
lemma checkPath_join (hdir : checkPath dir = .ok ()) (hname : IsFileName name) :
    checkPath (Path.join dir name) =
      if maxPath < (Path.join dir name).length then .error .nameTooLong else .ok () := by
  obtain ⟨hnul, hne, -⟩ := checkPath_eq_ok.1 hdir
  have hjoin : 0 ∉ Path.join dir name ∧ Path.join dir name ≠ [] := by
    rw [join_name dir hname]
    split <;> simp [hnul, hname.noNul, hne, Path.slash]
  simp [checkPath, hjoin]

lemma resolve_eq {path : Bytes} : t.resolve cwd path .follow =
    (checkPath path).bind fun _ => t.walk .follow maxLinks (origin cwd path) (Path.steps path) :=
  rfl

/-- A name by itself is walked from the current directory. -/
lemma resolve_name (hname : IsFileName name) :
    t.resolve cwd name .follow = t.walk .follow maxLinks cwd [name] := by
  have hcheck : checkPath name = .ok () :=
    checkPath_eq_ok.2 ⟨hname.noNul, hname.ne_nil, Nat.le_trans hname.short (by decide)⟩
  have horigin : origin cwd name = cwd := by
    rw [origin, isAbsolute_name hname, if_neg Bool.false_ne_true]
  rw [resolve_eq, hcheck, horigin, steps_name hname, Except.bind]

lemma resolve_eq_ok {path : Bytes} : t.resolve cwd path .follow = .ok place ↔
    checkPath path = .ok () ∧
      t.walk .follow maxLinks (origin cwd path) (Path.steps path) = .ok place := by
  rw [resolve_eq]
  cases checkPath path <;> simp [Except.bind]

/-- Where the path of a directory leads, a longer one goes on. -/
lemma walk_names_of_steps
    (h : t.walk .follow links here (Path.steps dir) = .ok place) :
    ∃ left, ∀ name rest, t.walk .follow links here (Path.names dir ++ name :: rest)
      = t.walk .follow left place (name :: rest) := by
  obtain ⟨left, -, hwalk⟩ := walk_append h
  refine ⟨left, ?_⟩
  intro name rest
  rw [← hwalk, Path.steps, List.append_assoc]
  split
  · rcases walk_front t links here (Path.names dir) with ⟨e, hfails⟩ | ⟨left, next, -, hnext⟩
    · rw [hfails, hfails]
    · rw [hnext, hnext, List.singleton_append, walk_nil_cons]
  · rw [List.nil_append]

/-- A path into a directory is walked from there, unless it is too long. -/
lemma resolve_join (h : t.resolve cwd dir .follow = .ok place) (hname : IsFileName name) :
    ∃ left, t.resolve cwd (Path.join dir name) .follow =
      if maxPath < (Path.join dir name).length then .error .nameTooLong
      else t.walk .follow left place [name] := by
  obtain ⟨hcheck, hwalk⟩ := resolve_eq_ok.1 h
  have hdir : dir ≠ [] := (checkPath_eq_ok.1 hcheck).2.1
  obtain ⟨left, hnames⟩ := walk_names_of_steps hwalk
  refine ⟨left, ?_⟩
  have horigin : origin cwd (Path.join dir name) = origin cwd dir := by
    rw [origin, isAbsolute_join hdir hname]
    rfl
  rw [resolve_eq, checkPath_join hcheck hname, horigin, steps_join hdir hname, hnames]
  split <;> rfl

end join

/-! ## Following links -/

/-- A name in a directory leads to a node, through any number of links. -/
inductive Ends (t : FileTree) (place : Place) (name : Bytes) : FileNode → Prop
  | here {n : FileNode} : t.node? (place ++ [name]) = some n → (∀ target, n ≠ .link target) →
      Ends t place name n
  | through {target : Bytes} {links : Nat} {q : Place} {n : FileNode} :
      t.node? (place ++ [name]) = some (.link target) →
      t.walk .follow links (origin place target) (Path.steps target) = .ok q →
      t.node? q = some n → Ends t place name n

/-- At a place there is a directory, and it gives the shell a right. -/
def Grants (t : FileTree) (place : Place) (r : Right) : Prop :=
  ∃ rights, t.node? place = some (.directory rights) ∧ rights.ownerMay r = true

/-- A path into a directory asks for no more than is granted. -/
structure WithinLimits (t : FileTree) (cwd : Place) (dir : Bytes) (place : Place) (name : Bytes) :
    Prop where
  searchable : t.Grants place .execute
  short : (Path.join dir name).length ≤ maxPath
  /-- There are not too many links on the way. -/
  links : t.stat cwd (Path.join dir name) ≠ .error .tooManyLinks

lemma turn_name (hsearch : t.Grants place .execute) (hname : IsFileName name) :
    t.turn place name = match t.node? (place ++ [name]) with
      | none => .fails .notFound
      | some (.link target) => .follows target
      | some _ => .enters (place ++ [name]) := by
  obtain ⟨rights, hnode, hrights⟩ := hsearch
  have hshort := Nat.not_lt.2 hname.short
  simp [turn, hnode, hrights, hname.ne_nil, hname.ne_dot, hname.ne_dotDot, hshort]

lemma stat_eq_ok {cwd : Place} {path : Bytes} {n : FileNode} : t.stat cwd path = .ok n ↔
    ∃ q, t.resolve cwd path .follow = .ok q ∧ t.node? q = some n := by
  cases h : t.resolve cwd path .follow with
  | error e => simp [stat, h, bind, Except.bind]
  | ok q => cases hnode : t.node? q <;> simp [stat, h, hnode, bind, Except.bind]

lemma stat_of_resolve {cwd : Place} {path : Bytes} {e : FileError}
    (h : t.resolve cwd path .follow = .error e) : t.stat cwd path = .error e := by
  simp [stat, h, bind, Except.bind]

/-- The root can be searched and listed. -/
lemma grants_root (t : FileTree) (r : Right) : t.Grants [] r :=
  ⟨.newDirectory, rfl, Rights.newDirectory_ownerMay r⟩

/-- A name in the current directory leads to the node that has it, unless that is a link. -/
lemma stat_name {cwd : Place} {node : Option FileNode} (hsearch : t.Grants cwd .execute)
    (hname : IsFileName name) (hnode : t.node? (cwd ++ [name]) = node)
    (hlink : ∀ target, node ≠ some (.link target)) :
    t.stat cwd name = node.elim (.error .notFound) .ok := by
  have hresolve : t.resolve cwd name .follow = _ := resolve_name hname
  rw [walk_cons, turn_name hsearch hname, hnode] at hresolve
  cases node with
  | none => exact stat_of_resolve hresolve
  | some n =>
      refine stat_eq_ok.2 ⟨cwd ++ [name], ?_, hnode⟩
      cases n with
      | link target => exact absurd rfl (hlink target)
      | directory rights | file content rights program => simpa using hresolve

/-- A walk that goes on from a directory goes through it. -/
lemma grants_of_walk (hname : IsFileName name)
    (h : t.walk .follow links here (name :: rest) = .ok place) : t.Grants here .execute := by
  rw [walk_cons] at h
  cases hnode : t.node? here with
  | none => simp [turn, hnode] at h
  | some node =>
      cases node with
      | file content rights program => simp [turn, hnode] at h
      | link target => simp [turn, hnode] at h
      | directory rights =>
          refine ⟨rights, hnode, ?_⟩
          cases hrights : rights.ownerMay .execute with
          | false => simp [turn, hnode, hname.ne_nil, hrights] at h
          | true => rfl

/-- A walk to a name in a directory ends where the name leads to. -/
lemma ends_of_walk (hname : IsFileName name) {n : FileNode}
    (h : t.walk .follow links here [name] = .ok place) (hn : t.node? place = some n) :
    t.Ends here name n := by
  have hsearch := grants_of_walk hname h
  rw [walk_cons, turn_name hsearch hname] at h
  cases hnode : t.node? (here ++ [name]) with
  | none => simp [hnode] at h
  | some node =>
      cases node with
      | link target =>
          cases links with
          | zero => simp [hnode] at h
          | succ links =>
              simp only [hnode, List.append_nil] at h
              exact .through hnode h hn
      | directory rights | file content rights program =>
          simp only [hnode, walk_nil, Except.ok.injEq] at h
          subst h
          rw [hnode] at hn
          cases hn
          exact .here hnode (by simp)

/-- Where a name leads to, a walk to it ends, or the links are not enough. -/
lemma walk_of_ends (hsearch : t.Grants here .execute) (hname : IsFileName name) {n : FileNode}
    (h : t.Ends here name n) (links : Nat) :
    (∃ q, t.walk .follow links here [name] = .ok q ∧ t.node? q = some n) ∨
      t.walk .follow links here [name] = .error .tooManyLinks := by
  rw [walk_cons, turn_name hsearch hname]
  cases h with
  | here hnode hlink =>
      refine .inl ⟨here ++ [name], ?_, hnode⟩
      cases n with
      | link target => exact absurd rfl (hlink target)
      | directory rights | file content rights program => simp [hnode]
  | through hnode hwalk hn =>
      simp only [hnode, List.append_nil]
      cases links with
      | zero => exact .inr rfl
      | succ links =>
          rcases walk_of_links hwalk links with hsame | hmany
          · exact .inl ⟨_, hsame, hn⟩
          · exact .inr hmany

/-- **What a path into a directory leads to** is what its name leads to, within limits. -/
theorem stat_join {cwd : Place} {dir : Bytes} {n : FileNode}
    (h : t.resolve cwd dir .follow = .ok place) (hname : IsFileName name) :
    t.stat cwd (Path.join dir name) = .ok n ↔
      t.Ends place name n ∧ t.WithinLimits cwd dir place name := by
  obtain ⟨left, hjoin⟩ := resolve_join h hname
  constructor
  · intro hstat
    obtain ⟨q, hq, hn⟩ := stat_eq_ok.1 hstat
    rw [hjoin] at hq
    split at hq
    · simp at hq
    · next hlong =>
        refine ⟨ends_of_walk hname hq hn, grants_of_walk hname hq, Nat.not_lt.1 hlong, ?_⟩
        simp [hstat]
  · rintro ⟨hends, hsearch, hshort, hlinks⟩
    rw [if_neg (Nat.not_lt.2 hshort)] at hjoin
    rcases walk_of_ends hsearch hname hends left with ⟨q, hwalk, hn⟩ | hmany
    · exact stat_eq_ok.2 ⟨q, hjoin.trans hwalk, hn⟩
    · exact absurd (stat_of_resolve (hjoin.trans hmany)) hlinks

end FileTree

end LineShell
