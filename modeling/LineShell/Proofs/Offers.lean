import LineShell.Proofs.ByteOrder
import LineShell.Proofs.Descent
import LineShell.Proofs.OneContext
import LineShell.Proofs.Streaming

/-!
# What completion offers

A completion request offers the names that its source holds and that go on from what is typed: all
of them and no other, in the order of the source, as often as they stand there.  What a request is
for is read off the tree of the line, without the classifiers.

* `Offers` — candidates for exactly the names of a list that start with what is typed.
* `Wanted`, `Chunk.Wants` — what a node asks for, told by its kind, its text and its links.
* `Chunk.wants_iff` — the classifiers recognise exactly that.
* **`completion_offers_exactly`** — for every line, position, snapshot and file system.
-/

namespace LineShell

/-! ## Candidates for names -/

/-- Candidates for exactly the names of a list that start with `part`, in the order of the list and
as often as they stand there.  With `lead` and `part` typed, each makes the whole name behind `lead`
and is shown as `shown` has it. -/
def Offers (candidates : List Candidate) (lead part : String) (shown : String → String)
    (names : List String) : Prop :=
  candidates.map (fun c => (c.fullName (lead ++ part), c.display))
    = (names.filter fun name => part.toList <+: name.toList).map fun name =>
        (lead ++ name, shown name)

lemma restAfter_eq_none_iff {head name : String} :
    restAfter head name = none ↔ ¬ head.toList <+: name.toList := by
  constructor
  · rintro h ⟨rest, hrest⟩
    have hname : name = head ++ String.ofList rest := by
      rw [← String.toList_inj, String.toList_append, String.toList_ofList, hrest]
    rw [restAfter_eq_some_iff.2 hname] at h
    exact absurd h (by simp)
  · intro h
    cases hrest : restAfter head name with
    | none => rfl
    | some rest =>
        refine absurd ⟨rest.toList, ?_⟩ h
        rw [restAfter_eq_some_iff.1 hrest, String.toList_append]

lemma restAfter_of_prefix {head name : String} (h : head.toList <+: name.toList) :
    ∃ rest, restAfter head name = some rest ∧ name = head ++ rest := by
  cases hrest : restAfter head name with
  | none => exact absurd h (restAfter_eq_none_iff.1 hrest)
  | some rest => exact ⟨rest, rfl, restAfter_eq_some_iff.1 hrest⟩

lemma offers_filterMap_matching {α : Type} (xs : List α) (name : α → String)
    (style : α → Option Style) (lead part : String) (shown : String → String) :
    Offers (xs.filterMap fun x => Candidate.matching (name x) part shown (style x)) lead part shown
      (xs.map name) := by
  unfold Offers
  induction xs with
  | nil => rfl
  | cons x xs ih =>
      rw [List.map_cons]
      by_cases hx : part.toList <+: (name x).toList
      · obtain ⟨rest, hrest, hname⟩ := restAfter_of_prefix hx
        have hmatch : Candidate.matching (name x) part shown (style x)
            = some ⟨rest, shown (name x), style x⟩ := by
          rw [Candidate.matching, hrest]
          rfl
        simp only [List.filterMap_cons, hmatch]
        rw [List.filter_cons_of_pos (by simpa using hx), List.map_cons, List.map_cons, ih]
        refine congrArg (· :: _) (Prod.ext ?_ rfl)
        show lead ++ part ++ rest = lead ++ name x
        rw [String.append_assoc, ← hname]
      · have hmatch : Candidate.matching (name x) part shown (style x) = none := by
          rw [Candidate.matching, restAfter_eq_none_iff.2 hx]
          rfl
        simp only [List.filterMap_cons, hmatch]
        rw [List.filter_cons_of_neg (by simpa using hx), ih]

lemma Offers.append {cs ds : List Candidate} {lead part : String} {shown : String → String}
    {ns ms : List String} (hc : Offers cs lead part shown ns) (hd : Offers ds lead part shown ms) :
    Offers (cs ++ ds) lead part shown (ns ++ ms) := by
  unfold Offers at hc hd ⊢
  rw [List.map_append, List.filter_append, List.map_append, hc, hd]

/-! ## The sources -/

/-- The names of functions are the globals behind the marker. -/
lemma map_marker_functionNames (snapshot : Snapshot) :
    (CommandSource.function.names snapshot).map (functionMarker ++ ·)
      = snapshot.globals.toList.filter fun name => functionMarker.toList <+: name.toList := by
  rw [CommandSource.names]
  induction snapshot.globals.toList with
  | nil => rfl
  | cons name names ih =>
      by_cases h : functionMarker.toList <+: name.toList
      · obtain ⟨rest, hrest, hname⟩ := restAfter_of_prefix h
        rw [List.filterMap_cons_some hrest, List.filter_cons_of_pos (by simpa using h),
          List.map_cons, ih, ← hname]
      · rw [List.filterMap_cons_none (restAfter_eq_none_iff.2 h),
          List.filter_cons_of_neg (by simpa using h), ih]

lemma NameSet.pairwise_bytes (s : NameSet) :
    s.toList.Pairwise fun a b => Bytes.ofString a < Bytes.ofString b :=
  s.sorted.imp Bytes.ofString_lt_iff.2

lemma lt_of_append_lt_append {as bs cs : List UInt8} (h : as ++ bs < as ++ cs) : bs < cs := by
  induction as with
  | nil => exact h
  | cons a as ih =>
      rcases List.cons_lt_cons_iff.1 h with hlt | ⟨-, h⟩
      · exact absurd hlt (UInt8.lt_irrefl a)
      · exact ih h

lemma ofString_append (a b : String) :
    Bytes.ofString (a ++ b) = Bytes.ofString a ++ Bytes.ofString b := by
  rw [Bytes.ofString_eq, Bytes.ofString_eq, Bytes.ofString_eq, String.toList_append,
    List.flatMap_append]

/-- Each source has its names in byte order: a marker before all of them does not change it. -/
lemma pairwise_names_source (source : CommandSource) (snapshot : Snapshot) :
    (source.names snapshot).Pairwise fun a b => Bytes.ofString a < Bytes.ofString b := by
  cases source with
  | special => exact snapshot.specials.pairwise_bytes
  | external => exact snapshot.externals.pairwise_bytes
  | function =>
      have h := snapshot.globals.pairwise_bytes.filter
        fun name => decide (functionMarker.toList <+: name.toList)
      rw [← map_marker_functionNames, List.pairwise_map] at h
      refine h.imp fun hab => ?_
      rw [ofString_append, ofString_append] at hab
      exact lt_of_append_lt_append hab

/-! ## What a node asks for -/

/-- What is to be completed, with what is typed of it. -/
inductive Wanted where
  /-- The name of a variable, behind its sigil. -/
  | reference (head : String)
  | command (head : String)
  | path (head : String)
  deriving DecidableEq, Repr

def ContextKind.wanted : ContextKind → String → Wanted
  | .reference, head => .reference head
  | .newCommand, head | .commandHead, head => .command head
  | .newArgument, head | .argument, head => .path head

/-- A node `n` that is bare text and all that its word `m` is made of. -/
structure Chunk.SoleBareword (c : Chunk) (n m : Node) : Prop where
  bare : n.kind = .primary .bareword
  mem : m ∈ c.nodes
  word : m.kind = .compound
  parent : n.parent = some m.id
  alone : m.children = [n.id]

/-- What a node of a tree asks for, as its kind, its text and the nodes around it tell. -/
inductive Chunk.Wants (c : Chunk) (n : Node) : Wanted → Prop
  | reference {name : List Char} : n.kind = .primary .reference → n.text = '$' :: name →
      c.Wants n (.reference (String.ofList name))
  /-- The line itself, or a part of it beside statements. -/
  | newCommand : n.id = 0 ∨ n.parent = some 0 → c.Wants n (.command "")
  | commandHead {m : Node} : c.SoleBareword n m → m.index = some 0 →
      c.Wants n (.command (String.ofList n.text))
  /-- Blanks inside a statement. -/
  | newArgument {f : Node} : n.kind = .separator → f ∈ c.nodes → f.kind = .form →
      n.parent = some f.id → c.Wants n (.path "")
  | argument {m : Node} : c.SoleBareword n m → m.index ≠ some 0 →
      c.Wants n (.path (String.ofList n.text))

namespace Chunk

variable {c : Chunk}

/-- A segment is a part of the word that it names. -/
lemma mem_parts_word {f : Placed Form} {w : Placed Compound} {p : Placed Primary}
    (h : .primary f w p ∈ c.nodes) :
    Node.primary f w p ∈ (Node.formPart f (w.withItem (.word w.item))).parts := by
  rcases eq_root_or_mem_parts _ h with hroot | ⟨m, hm, hn⟩
  · exact absurd hroot (by simp)
  · have hparent := Node.parent_of_mem_parts hn
    obtain rfl := eq_of_id_eq (word_mem_nodes h).1 hm (Option.some.inj hparent)
    exact hn

/-- Bare text that is all of its word, as the node holds the word. -/
lemma soleBareword_iff {f : Placed Form} {w : Placed Compound} {p : Placed Primary} {m : Node}
    (h : .primary f w p ∈ c.nodes) :
    c.SoleBareword (.primary f w p) m ↔
      p.item.kind = .bareword ∧ w.item.primaries.length = 1 ∧
        m = .formPart f (w.withItem (.word w.item)) := by
  have hlength := length_children_word f w
  have hmem := (word_mem_nodes h).1
  constructor
  · rintro ⟨hbare, hm, -, hparent, halone⟩
    obtain rfl := eq_of_id_eq hmem hm (Option.some.inj hparent)
    rw [halone] at hlength
    exact ⟨NodeKind.primary.inj hbare, hlength.symm, rfl⟩
  · rintro ⟨hbare, hone, rfl⟩
    have hchild : (Node.primary f w p).id
        ∈ (Node.formPart f (w.withItem (.word w.item))).children := by
      rw [Node.children_eq]
      exact List.mem_map_of_mem (mem_parts_word h)
    obtain ⟨i, hi⟩ := List.length_eq_one_iff.1 (hlength.trans hone)
    rw [hi, List.mem_singleton] at hchild
    exact ⟨congrArg NodeKind.primary hbare, hmem, rfl, rfl, by rw [hi, hchild]⟩

lemma wants_of_classify {n : Node} (h : n ∈ c.nodes) {k : ContextKind} {ctx : Context}
    (hctx : k.classify n = some ctx) : c.Wants n (k.wanted ctx.head) := by
  have hkind := isSome_classify_iff.1 (Option.isSome_of_eq_some hctx)
  match n, hkind with
  | .chunk _, hkind =>
      obtain rfl := Option.some.inj hkind
      obtain rfl := Option.some.inj hctx
      exact .newCommand (.inl rfl)
  | .part _, hkind =>
      obtain rfl := Option.some.inj hkind
      obtain rfl := Option.some.inj hctx
      exact .newCommand (.inr rfl)
  | .formPart f ⟨i, j, start, .space t⟩, hkind =>
      obtain rfl := Option.some.inj hkind
      obtain rfl := Option.some.inj hctx
      rcases eq_root_or_mem_parts _ h with hroot | ⟨m, hm, hn⟩
      · exact absurd hroot (by simp)
      · match m, hm, hn with
        | .part ⟨_, _, _, .form g⟩, hm, hn =>
            exact .newArgument rfl hm rfl (Node.parent_of_mem_parts hn)
        | .chunk d, _, hn => exact absurd hn (by simp [Node.parts])
        | .formPart g ⟨_, _, _, .word v⟩, _, hn => exact absurd hn (by simp [Node.parts])
  | .primary f w ⟨i, j, start, .reference name⟩, hkind =>
      obtain rfl := Option.some.inj hkind
      obtain rfl := Option.some.inj hctx
      exact .reference rfl rfl
  | .primary f w ⟨i, j, start, .bareword t⟩, hkind =>
      by_cases hone : w.item.primaries.length = 1
      · have hsole := (soleBareword_iff h).2 ⟨rfl, hone, rfl⟩
        by_cases hindex : w.index = 0
        · obtain rfl : ContextKind.commandHead = k := by
            simpa [Node.contextKind?, hone, hindex] using hkind
          obtain rfl : Context.ofNode .commandHead _ t = ctx := by
            simpa [ContextKind.classify, Context.commandHead, Node.simpleCompound, hone, hindex]
              using hctx
          exact .commandHead hsole (congrArg some hindex)
        · obtain rfl : ContextKind.argument = k := by
            simpa [Node.contextKind?, hone, hindex] using hkind
          obtain rfl : Context.ofNode .argument _ t = ctx := by
            simpa [ContextKind.classify, Context.argument, Node.simpleCompound, hone, hindex]
              using hctx
          exact .argument hsole fun hzero => hindex (Option.some.inj hzero)
      · exact absurd hkind (by simp [Node.contextKind?, hone])

lemma eq_root_or_part {n : Node} (h : n ∈ c.nodes) (hn : n.id = 0 ∨ n.parent = some 0) :
    n = .chunk c ∨ ∃ p, n = .part p := by
  rcases hn with hid | hparent
  · exact .inl (eq_of_id_eq h c.root_mem_nodes hid)
  · rcases eq_root_or_mem_parts _ h with hroot | ⟨m, hm, hmem⟩
    · exact .inl hroot
    · have hid : m.id = 0 := by
        rw [Node.parent_of_mem_parts hmem] at hparent
        exact Option.some.inj hparent
      obtain rfl : m = .chunk c := eq_of_id_eq hm c.root_mem_nodes hid
      obtain ⟨p, -, rfl⟩ := List.mem_map.1 hmem
      exact .inr ⟨p, rfl⟩

/-- Blanks inside a statement are a separator with a form around it. -/
lemma exists_space_of_kind {n f : Node} (h : n.kind = .separator) (hf : f ∈ c.nodes)
    (hform : f.kind = .form) (hparent : n.parent = some f.id) :
    ∃ g i j start t, n = .formPart g ⟨i, j, start, .space t⟩ := by
  match n, h with
  | .part _, _ =>
      have hid : f.id = 0 := (Option.some.inj hparent).symm
      obtain rfl := eq_of_id_eq hf c.root_mem_nodes hid
      exact absurd hform (by simp [Node.kind])
  | .formPart g ⟨i, j, start, .space t⟩, _ => exact ⟨g, i, j, start, t, rfl⟩
  | .formPart _ ⟨_, _, _, .word _⟩, h => exact absurd h (by simp [Node.kind])

lemma exists_bareword_of_sole {n m : Node} (h : n ∈ c.nodes) (hsole : c.SoleBareword n m) :
    ∃ f w i j start t, n = .primary f w ⟨i, j, start, .bareword t⟩ ∧
      w.item.primaries.length = 1 ∧ m = .formPart f (w.withItem (.word w.item)) := by
  obtain ⟨f, w, ⟨i, j, start, p⟩, rfl, hp⟩ := Node.exists_of_kind_eq_primary hsole.bare
  obtain ⟨-, hone, hm⟩ := (soleBareword_iff h).1 hsole
  cases p with
  | bareword t => exact ⟨f, w, i, j, start, t, rfl, hone, hm⟩
  | reference _ | singleQuoted _ _ | doubleQuoted _ _ =>
      exact absurd hp (by simp [Primary.kind])

lemma classify_of_wants {n : Node} (h : n ∈ c.nodes) {x : Wanted} (hx : c.Wants n x) :
    ∃ k ctx, ContextKind.classify k n = some ctx ∧ k.wanted ctx.head = x := by
  cases hx with
  | @reference name hkind htext =>
      obtain ⟨f, w, ⟨i, j, start, p⟩, rfl, hp⟩ := Node.exists_of_kind_eq_primary hkind
      cases p with
      | reference r =>
          obtain rfl : r = name := (List.cons.inj htext).2
          exact ⟨.reference, _, rfl, rfl⟩
      | bareword _ | singleQuoted _ _ | doubleQuoted _ _ =>
          exact absurd hp (by simp [Primary.kind])
  | newCommand hroot =>
      rcases eq_root_or_part h hroot with rfl | ⟨p, rfl⟩
      · exact ⟨.newCommand, _, rfl, rfl⟩
      · exact ⟨.newCommand, _, rfl, rfl⟩
  | commandHead hsole hindex =>
      obtain ⟨f, w, i, j, start, t, rfl, hone, rfl⟩ := exists_bareword_of_sole h hsole
      have hzero : w.index = 0 := Option.some.inj hindex
      have hctx : ContextKind.commandHead.classify (.primary f w ⟨i, j, start, .bareword t⟩)
          = some (.ofNode .commandHead (.primary f w ⟨i, j, start, .bareword t⟩) t) := by
        simp [ContextKind.classify, Context.commandHead, Node.simpleCompound, hone, hzero]
      exact ⟨.commandHead, _, hctx, rfl⟩
  | newArgument hsep hf hform hparent =>
      obtain ⟨g, i, j, start, t, rfl⟩ := exists_space_of_kind hsep hf hform hparent
      exact ⟨.newArgument, _, rfl, rfl⟩
  | argument hsole hindex =>
      obtain ⟨f, w, i, j, start, t, rfl, hone, rfl⟩ := exists_bareword_of_sole h hsole
      have hzero : w.index ≠ 0 := fun hzero => hindex (congrArg some hzero)
      have hctx : ContextKind.argument.classify (.primary f w ⟨i, j, start, .bareword t⟩)
          = some (.ofNode .argument (.primary f w ⟨i, j, start, .bareword t⟩) t) := by
        simp [ContextKind.classify, Context.argument, Node.simpleCompound, hone, hzero]
      exact ⟨.argument, _, hctx, rfl⟩

/-- A node asks for what its context is for. -/
theorem wants_iff {n : Node} (h : n ∈ c.nodes) {x : Wanted} :
    c.Wants n x ↔ ∃ k ctx, ContextKind.classify k n = some ctx ∧ k.wanted ctx.head = x := by
  constructor
  · exact classify_of_wants h
  · rintro ⟨k, ctx, hctx, rfl⟩
    exact wants_of_classify h hctx

end Chunk

lemma cursorNode_mem_nodes (line : String) (pos : Nat) :
    cursorNode line pos ∈ (parse line.toList).nodes :=
  Chunk.mem_nodes_of_mem_leaves (leafAt_start (Nat.min_le_right _ _)).1

/-! ## Directories -/

/-- A path typed in part, cut behind its last slash. -/
structure CutAtSlash (head lead part : String) : Prop where
  append : head = lead ++ part
  /-- What stands before the cut, if anything, ends with the slash. -/
  lead : lead = "" ∨ lead.toList.getLast? = some '/'
  part : '/' ∉ part.toList

/-- The directory that is listed for what stands before the cut. -/
def directoryOf (lead : String) : String :=
  if lead = "" then "." else lead

lemma takeWhile_ne_slash (cs : List Char) :
    ∃ dir, cs = dir ++ (cs.reverse.takeWhile (· ≠ '/')).reverse ∧
      (dir = [] ∨ dir.getLast? = some '/') ∧
      '/' ∉ (cs.reverse.takeWhile (· ≠ '/')).reverse := by
  refine ⟨(cs.reverse.dropWhile (· ≠ '/')).reverse, ?_, ?_, ?_⟩
  · rw [← List.reverse_append, List.takeWhile_append_dropWhile, List.reverse_reverse]
  · rw [List.getLast?_reverse, List.reverse_eq_nil_iff]
    cases hdrop : cs.reverse.dropWhile (· ≠ '/') with
    | nil => exact .inl rfl
    | cons c rest =>
        have hc := List.head?_dropWhile_not (· ≠ '/') cs.reverse
        rw [hdrop] at hc
        exact .inr (by simpa using hc)
  · intro hmem
    have hne := List.mem_takeWhile_imp (List.mem_reverse.1 hmem)
    exact absurd hne (by simp)

/-- A path is split where it is cut. -/
lemma exists_cutAtSlash (head : String) :
    ∃ lead part, CutAtSlash head lead part ∧ splitPath head = (directoryOf lead, part) := by
  obtain ⟨dir, hcs, hdir, hpart⟩ := takeWhile_ne_slash head.toList
  have hsplit : splitPath head
      = if dir = [] then (".", head)
        else (String.ofList dir,
          String.ofList (head.toList.reverse.takeWhile (· ≠ '/')).reverse) := by
    have htake : head.toList.take (head.toList.length
        - ((head.toList.reverse.takeWhile (· ≠ '/')).reverse).length) = dir := by
      generalize (head.toList.reverse.takeWhile (· ≠ '/')).reverse = file at hcs
      rw [hcs, List.length_append, Nat.add_sub_cancel, List.take_left]
    rw [splitPath]
    simp only [htake]
  generalize (head.toList.reverse.takeWhile (· ≠ '/')).reverse = file at hcs hpart hsplit
  have hhead : head = String.ofList dir ++ String.ofList file := by
    rw [← String.toList_inj, hcs, String.toList_append, String.toList_ofList, String.toList_ofList]
  refine ⟨String.ofList dir, String.ofList file, ⟨hhead, ?_, ?_⟩, ?_⟩
  · rw [String.toList_ofList]
    exact hdir.imp_left fun hnil => by rw [hnil]
  · rwa [String.toList_ofList]
  · rw [hsplit]
    by_cases hnil : dir = []
    · subst hnil
      have hfile : head = String.ofList file := by
        rw [hhead]
        exact String.empty_append
      rw [if_pos rfl, hfile]
      rfl
    · have hne : String.ofList dir ≠ "" := by
        intro h
        exact hnil (by simpa using congrArg String.toList h)
      rw [if_neg hnil, directoryOf, if_neg hne]

/-! ## One request -/

section request

variable {s : Settings} {list : Lister} {line : String} {pos : Nat} {snapshot : Snapshot}

lemma filter_standardCompleters (s : Settings) (list : Lister) (n : Node) :
    (standardCompleters s list).filter (Completer.accepts n)
      = n.contextKind?.toList.map (standardCompleter s list) := by
  rw [standardCompleters_eq, List.filter_map, accepts_comp_standardCompleter]
  cases n.contextKind? with
  | none => rfl
  | some k => cases k <;> rfl

lemma complete_eq (s : Settings) (list : Lister) (line : String) (pos : Nat)
    (snapshot : Snapshot) :
    complete (standardCompleters s list) line pos snapshot
      = (dispatch ((cursorNode line pos).contextKind?.toList.map (standardCompleter s list))
          (cursorNode line pos) snapshot).map Dispatch.outcome := by
  rw [← filter_standardCompleters]
  exact map_outcome_dispatchFrom_filter 0 0 [] _

/-- A node without a context is offered nothing. -/
lemma complete_of_none (h : (cursorNode line pos).contextKind? = none) :
    complete (standardCompleters s list) line pos snapshot = .ok (.nothing []) := by
  rw [complete_eq, h]
  rfl

/-- A node with a context is offered what the one generator for it makes. -/
lemma complete_of_classify {k : ContextKind} {ctx : Context}
    (h : k.classify (cursorNode line pos) = some ctx) :
    complete (standardCompleters s list) line pos snapshot
      = ((standardCompleter s list k).generate ctx.head snapshot []).map fun g =>
          if g.1 = [] then .nothing g.2
          else ⟨some (standardCompleter s list k).name, some ctx, g.1, g.2⟩ := by
  have hkind := isSome_classify_iff.1 (Option.isSome_of_eq_some h)
  have hctx : (standardCompleter s list k).classify (cursorNode line pos) = some ctx := by
    rw [classify_standardCompleter, h]
  rw [complete_eq, hkind, Option.toList_some, List.map_singleton, dispatch,
    dispatchFrom_cons_of_some hctx]
  cases (standardCompleter s list k).generate ctx.head snapshot [] with
  | error e => rfl
  | ok g =>
      rw [Except.bind]
      by_cases hg : g.1 = [] <;> simp [hg, dispatchFrom, Except.map, Dispatch.after]

/-- An outcome is that of a place without a context, or all that one generator makes. -/
lemma outcome_cases {o : Outcome}
    (h : complete (standardCompleters s list) line pos snapshot = .ok o) :
    o = .nothing [] ∨ ∃ k ctx g, k.classify (cursorNode line pos) = some ctx ∧
      (standardCompleter s list k).generate ctx.head snapshot [] = .ok g ∧
      o = if g.1 = [] then .nothing g.2
        else ⟨some (standardCompleter s list k).name, some ctx, g.1, g.2⟩ := by
  cases hkind : (cursorNode line pos).contextKind? with
  | none =>
      rw [complete_of_none hkind] at h
      exact .inl (Except.ok.inj h).symm
  | some k =>
      obtain ⟨ctx, hctx⟩ := Option.isSome_iff_exists.1 (isSome_classify_iff.2 hkind)
      rw [complete_of_classify hctx] at h
      cases hg : (standardCompleter s list k).generate ctx.head snapshot [] with
      | error e =>
          rw [hg] at h
          exact absurd h (by simp [Except.map])
      | ok g =>
          rw [hg] at h
          exact .inr ⟨k, ctx, g, hctx, hg, (Except.ok.inj h).symm⟩

/-- The candidates of a request for a place with a context, and the head that goes with them. -/
lemma exists_complete_of_generate {k : ContextKind} {ctx : Context} {g : Generated}
    (h : k.classify (cursorNode line pos) = some ctx)
    (hg : (standardCompleter s list k).generate ctx.head snapshot [] = .ok g) :
    ∃ o, complete (standardCompleters s list) line pos snapshot = .ok o ∧
      (o.candidates ≠ [] → o.head = ctx.head) ∧ o.candidates = g.1 := by
  rw [complete_of_classify h, hg, Except.map]
  by_cases hnil : g.1 = []
  · rw [if_pos hnil]
    exact ⟨_, rfl, fun hne => absurd rfl hne, hnil.symm⟩
  · rw [if_neg hnil]
    exact ⟨_, rfl, fun _ => rfl, rfl⟩

lemma complete_of_generate_eq_error {k : ContextKind} {ctx : Context} {e : Fault}
    (h : k.classify (cursorNode line pos) = some ctx)
    (hg : (standardCompleter s list k).generate ctx.head snapshot [] = .error e) :
    complete (standardCompleters s list) line pos snapshot = .error e := by
  rw [complete_of_classify h, hg]
  rfl

/-- The request ends well and offers exactly the names of a list that go on from what is typed. -/
def Answers (r : Except Fault Outcome) (lead part : String) (shown : String → String)
    (names : List String) : Prop :=
  ∃ o, r = .ok o ∧ (o.candidates ≠ [] → o.head = lead ++ part) ∧
    Offers o.candidates lead part shown names

/-- All names of commands: those of special forms, of functions and of programs. -/
def Snapshot.commandNames (snapshot : Snapshot) : List String :=
  CommandSource.all.flatMap fun source => source.names snapshot

lemma offers_variableCandidates (style : Option Style) (head : String) (snapshot : Snapshot) :
    Offers (variableCandidates style head snapshot) "" head ("$" ++ ·) snapshot.globals.toList := by
  have h := offers_filterMap_matching snapshot.globals.toList id (fun _ => style) "" head ("$" ++ ·)
  rwa [List.map_id] at h

lemma commandNames_eq (snapshot : Snapshot) :
    snapshot.commandNames = snapshot.specials.toList ++ CommandSource.function.names snapshot
      ++ snapshot.externals.toList := by
  simp [Snapshot.commandNames, CommandSource.all, CommandSource.names]

lemma offers_commandCandidates (style : Option Style) (head : String) (snapshot : Snapshot) :
    Offers (commandCandidates style head snapshot) "" head id snapshot.commandNames := by
  rw [commandCandidates, Snapshot.commandNames]
  induction CommandSource.all with
  | nil => rfl
  | cons source sources ih =>
      rw [List.flatMap_cons, List.flatMap_cons]
      have h := offers_filterMap_matching (source.names snapshot) id
        (fun _ => source.style style) "" head id
      rw [List.map_id] at h
      exact h.append ih

lemma answers_of_generate {k : ContextKind} {ctx : Context} {g : Generated} {lead part : String}
    {shown : String → String} {names : List String}
    (h : k.classify (cursorNode line pos) = some ctx)
    (hg : (standardCompleter s list k).generate ctx.head snapshot [] = .ok g)
    (hhead : ctx.head = lead ++ part) (hoffers : Offers g.1 lead part shown names) :
    Answers (complete (standardCompleters s list) line pos snapshot) lead part shown names := by
  obtain ⟨o, ho, hohead, hcandidates⟩ := exists_complete_of_generate h hg
  exact ⟨o, ho, fun hne => (hohead hne).trans hhead, hcandidates ▸ hoffers⟩

/-- What a request offers for a path: the entries of the directory that is typed, in the order in
which it has them, or nothing where it cannot be listed. -/
def OffersEntries (s : Settings) (list : Lister) (r : Except Fault Outcome)
    (lead part : String) : Prop :=
  match list (directoryOf lead) with
  | .ok entries =>
    if s.channelCapacity ≤ Channel.maxCapacity then
      Answers r lead part id (entries.map Entry.name)
    else r = .error .channelTooLarge
  | .error _ => Answers r lead part id []

lemma offersEntries_of_classify {k : ContextKind} {ctx : Context}
    (h : k.classify (cursorNode line pos) = some ctx)
    (hgen : (standardCompleter s list k).generate = generateFiles list s.channelCapacity s.styler) :
    ∃ lead part, CutAtSlash ctx.head lead part ∧
      OffersEntries s list (complete (standardCompleters s list) line pos snapshot) lead part := by
  obtain ⟨lead, part, hcut, hsplit⟩ := exists_cutAtSlash ctx.head
  have hdir : (splitPath ctx.head).1 = directoryOf lead := by rw [hsplit]
  have hpart : (splitPath ctx.head).2 = part := by rw [hsplit]
  refine ⟨lead, part, hcut, ?_⟩
  rw [OffersEntries, ← hdir]
  cases hlist : list (splitPath ctx.head).1 with
  | error e =>
      have hg : (standardCompleter s list k).generate ctx.head snapshot []
          = .ok ([], [listingTip (splitPath ctx.head).1 e]) := by
        rw [hgen, generateFiles_of_error snapshot hlist]
        rfl
      exact answers_of_generate h hg hcut.append rfl
  | ok entries =>
      have hg : (standardCompleter s list k).generate ctx.head snapshot []
          = (Channel.create s.channelCapacity entries).map fun channel =>
              (fileCandidates s.styler part channel.drain, []) := by
        rw [hgen, generateFiles_of_ok snapshot hlist, hpart]
      by_cases hcapacity : s.channelCapacity ≤ Channel.maxCapacity
      · obtain ⟨channel, hchannel⟩ := Channel.exists_create_eq_ok hcapacity entries
        rw [hchannel, Except.map, Channel.drain_create hchannel] at hg
        simp only [if_pos hcapacity]
        exact answers_of_generate h hg hcut.append
          (offers_filterMap_matching entries Entry.name _ lead part id)
      · simp only [if_neg hcapacity]
        refine complete_of_generate_eq_error h ?_
        rw [hg, Channel.create, if_pos (Nat.not_le.1 hcapacity)]
        rfl

/-- What a request offers, by what the node at the cursor asks for. -/
structure OffersExactly (s : Settings) (list : Lister) (line : String) (pos : Nat)
    (snapshot : Snapshot) : Prop where
  reference : ∀ head, (parse line.toList).Wants (cursorNode line pos) (.reference head) →
    Answers (complete (standardCompleters s list) line pos snapshot) "" head ("$" ++ ·)
      snapshot.globals.toList
  /-- A name that several sources have is offered as often. -/
  command : ∀ head, (parse line.toList).Wants (cursorNode line pos) (.command head) →
    Answers (complete (standardCompleters s list) line pos snapshot) "" head id
      (snapshot.specials.toList ++ CommandSource.function.names snapshot
        ++ snapshot.externals.toList)
  path : ∀ head, (parse line.toList).Wants (cursorNode line pos) (.path head) →
    ∃ lead part, CutAtSlash head lead part ∧
      OffersEntries s list (complete (standardCompleters s list) line pos snapshot) lead part
  nothing : (∀ wanted, ¬ (parse line.toList).Wants (cursorNode line pos) wanted) →
    complete (standardCompleters s list) line pos snapshot = .ok (.nothing [])

lemma offersExactly (s : Settings) (list : Lister) (line : String) (pos : Nat)
    (snapshot : Snapshot) : OffersExactly s list line pos snapshot := by
  have hnode := cursorNode_mem_nodes line pos
  refine ⟨?_, ?_, ?_, ?_⟩
  · intro head hwants
    obtain ⟨k, ctx, hctx, hk⟩ := (Chunk.wants_iff hnode).1 hwants
    match k, hk with
    | .reference, hk =>
        obtain rfl := Wanted.reference.inj hk
        exact answers_of_generate hctx rfl String.empty_append.symm
          (offers_variableCandidates s.variableStyle ctx.head snapshot)
  · intro head hwants
    obtain ⟨k, ctx, hctx, hk⟩ := (Chunk.wants_iff hnode).1 hwants
    have hoffers := offers_commandCandidates s.commandStyle ctx.head snapshot
    rw [commandNames_eq] at hoffers
    match k, hk with
    | .newCommand, hk | .commandHead, hk =>
        obtain rfl := Wanted.command.inj hk
        exact answers_of_generate hctx rfl String.empty_append.symm hoffers
  · intro head hwants
    obtain ⟨k, ctx, hctx, hk⟩ := (Chunk.wants_iff hnode).1 hwants
    match k, hk with
    | .newArgument, hk | .argument, hk =>
        obtain rfl := Wanted.path.inj hk
        exact offersEntries_of_classify hctx rfl
  · intro hnothing
    refine complete_of_none ?_
    cases hkind : (cursorNode line pos).contextKind? with
    | none => rfl
    | some k =>
        obtain ⟨ctx, hctx⟩ := Option.isSome_iff_exists.1 (isSome_classify_iff.2 hkind)
        exact absurd ((Chunk.wants_iff hnode).2 ⟨k, ctx, hctx, rfl⟩) (hnothing _)

end request

/-- **A request offers exactly the names that its source holds and that go on from what is
typed**, and every source of names is in byte order. -/
theorem completion_offers_exactly (snapshot : Snapshot) :
    (snapshot.globals.toList.Pairwise fun a b => Bytes.ofString a < Bytes.ofString b) ∧
    (∀ source : CommandSource,
      (source.names snapshot).Pairwise fun a b => Bytes.ofString a < Bytes.ofString b) ∧
    (CommandSource.function.names snapshot).map (functionMarker ++ ·)
      = snapshot.globals.toList.filter (fun name => functionMarker.toList <+: name.toList) ∧
    ∀ (s : Settings) (list : Lister) (line : String) (pos : Nat),
      OffersExactly s list line pos snapshot :=
  ⟨snapshot.globals.pairwise_bytes, fun source => pairwise_names_source source snapshot,
    map_marker_functionNames snapshot,
    fun s list line pos => offersExactly s list line pos snapshot⟩

end LineShell
