import LineShell.Machine
import LineShell.Proofs.Walks
import Mathlib.Data.List.Sort

/-!
# The programs on a search path

A directory that is missing, cannot be listed or is no directory adds no names, and neither does an
entry that leads nowhere, so nothing that goes wrong in one place takes names away from another.
What a directory adds depends on it alone.  A name is passed over, though, where the path to it is
longer than a path may be, goes through too many links or through a directory that is closed, even
if its entry can be listed and leads to a program.

* `Machine.Lists`, `Machine.ProgramOn` — a directory that can be listed, and a program in one.
* `Machine.mem_executables_iff` — the names that one directory adds.
* `Machine.ProgramIndex` — what the names of all directories together are.
* **`program_index`** — for every machine whose file names are text.
-/

namespace LineShell

/-- All names in a file system can be names of files, and are text. -/
def FileTree.TextNames (t : FileTree) : Prop :=
  ∀ n ∈ t.nodes, ∀ name ∈ n.1, IsFileName name ∧ ∃ text, name = Bytes.ofString text

/-! ## Sets of names -/

lemma NameSet.ext_of_mem {s t : NameSet} (h : ∀ name, name ∈ s ↔ name ∈ t) : s = t := by
  have hlists : s.toList = t.toList := s.sorted.eq_of_mem_iff t.sorted h
  cases s
  cases t
  cases hlists
  rfl

namespace FileTree

variable {t : FileTree} {place : Place} {name : Bytes} {n : FileNode}

lemma mem_children_iff : (name, n) ∈ t.children place ↔ (place ++ [name], n) ∈ t.nodes := by
  simp only [children, List.mem_filterMap]
  constructor
  · rintro ⟨⟨names, node⟩, hmem, hentry⟩
    cases hlast : names.getLast? with
    | none => simp [hlast] at hentry
    | some last =>
        obtain ⟨front, rfl⟩ := List.getLast?_eq_some_iff.1 hlast
        simp only [hlast, List.dropLast_concat] at hentry
        split at hentry
        · next hfront =>
            cases hentry
            exact hfront ▸ hmem
        · simp at hentry
  · intro hmem
    exact ⟨_, hmem, by simp⟩

lemma mem_nodes_of_node? (h : t.node? (place ++ [name]) = some n) :
    (place ++ [name], n) ∈ t.nodes := by
  rw [node?, if_neg (by simp)] at h
  obtain ⟨front, back, hnodes, -⟩ := List.lookup_eq_some_iff.1 h
  simp [hnodes]

/-- A name that leads somewhere is an entry of its directory. -/
lemma Ends.exists_mem_children (h : t.Ends place name n) :
    ∃ entry, (name, entry) ∈ t.children place := by
  cases h with
  | here hnode => exact ⟨_, mem_children_iff.2 (mem_nodes_of_node? hnode)⟩
  | through hnode => exact ⟨_, mem_children_iff.2 (mem_nodes_of_node? hnode)⟩

end FileTree

namespace Machine

variable {m : Machine} {path dir : Bytes} {place : Place} {name : String}

/-- A directory that is named and can be listed is at a place. -/
structure Lists (m : Machine) (dir : Bytes) (place : Place) : Prop where
  named : dir ≠ []
  resolves : m.files.resolve m.place dir .follow = .ok place
  readable : m.files.Grants place .read

/-- In some directory on a search path a name leads to a file that anyone may execute. -/
def ProgramOn (m : Machine) (path : Bytes) (name : String) : Prop :=
  ∃ dir ∈ path.splitOn 0x3A, ∃ place n, m.Lists dir place ∧
    m.files.Ends place (Bytes.ofString name) n ∧ n.isExecutable = true

lemma list_eq_ok {nodes : List (Bytes × FileNode)} (hdir : dir ≠ []) :
    m.files.list m.place dir = .ok nodes ↔
      ∃ place, m.Lists dir place ∧ m.files.children place = nodes := by
  constructor
  · intro h
    cases hplace : m.files.resolve m.place dir .follow with
    | error e => simp [FileTree.list, hplace, bind, Except.bind] at h
    | ok place =>
        cases hnode : m.files.node? place with
        | none => simp [FileTree.list, hplace, hnode, bind, Except.bind] at h
        | some node =>
            cases node with
            | file content rights program =>
                simp [FileTree.list, hplace, hnode, bind, Except.bind] at h
            | link target => simp [FileTree.list, hplace, hnode, bind, Except.bind] at h
            | directory rights =>
                cases hrights : rights.ownerMay .read with
                | false => simp [FileTree.list, hplace, hnode, hrights, bind, Except.bind] at h
                | true =>
                    simp only [FileTree.list, hplace, hnode, hrights, bind, Except.bind] at h
                    exact ⟨place, ⟨hdir, hplace, rights, hnode, hrights⟩, by simpa using h⟩
  · rintro ⟨place, ⟨-, hplace, rights, hnode, hrights⟩, rfl⟩
    simp [FileTree.list, hplace, hnode, hrights, bind, Except.bind]

/-- An entry adds its name where the path to it leads to a program. -/
lemma mem_executables (hdir : dir ≠ []) : name ∈ m.executables dir ↔
    ∃ place, m.Lists dir place ∧ ∃ entry ∈ m.files.children place, entry.1.lossy = name ∧
      ∃ n, m.files.stat m.place (Path.join dir entry.1) = .ok n ∧ n.isExecutable = true := by
  cases hlist : m.files.list m.place dir with
  | error e =>
      have hnone : ∀ place, ¬ m.Lists dir place := by
        intro place hplace
        have hok := (list_eq_ok hdir).2 ⟨place, hplace, rfl⟩
        simp [hlist] at hok
      simp [executables, hlist, hnone]
  | ok nodes =>
      obtain ⟨place, hplace, rfl⟩ := (list_eq_ok hdir).1 hlist
      simp only [executables, hlist]
      rw [List.mem_filterMap]
      constructor
      · rintro ⟨entry, hentry, hname⟩
        refine ⟨place, hplace, entry, hentry, ?_⟩
        cases hstat : m.files.stat m.place (Path.join dir entry.1) with
        | error e => simp [hstat] at hname
        | ok n =>
            cases hexec : n.isExecutable with
            | false => simp [hstat, hexec] at hname
            | true =>
                refine ⟨?_, n, rfl, hexec⟩
                simpa [hstat, hexec] using hname
      · rintro ⟨other, hother, entry, hentry, hname, n, hstat, hexec⟩
        have hsame : other = place := by
          simpa [hother.resolves] using hplace.resolves
        subst hsame
        exact ⟨entry, hentry, by simp [hstat, hexec, hname]⟩

/-- **The names that a directory adds** are those of the programs in it, within limits. -/
theorem mem_executables_iff (hnames : m.files.TextNames) (hdir : dir ≠ []) :
    name ∈ m.executables dir ↔ ∃ place n, m.Lists dir place ∧
      m.files.Ends place (Bytes.ofString name) n ∧ n.isExecutable = true ∧
      m.files.WithinLimits m.place dir place (Bytes.ofString name) := by
  have hfile : ∀ {place entry}, entry ∈ m.files.children place →
      FileTree.IsFileName entry.1 ∧ ∃ text, entry.1 = Bytes.ofString text := by
    intro place entry hentry
    exact hnames _ (FileTree.mem_children_iff.1 hentry) entry.1 (by simp)
  have hlossy : ∀ text, (Bytes.ofString text).lossy = text := fun text =>
    Bytes.lossy_of_text? (Bytes.text?_ofString text)
  rw [mem_executables hdir]
  constructor
  · rintro ⟨place, hplace, ⟨b, entry⟩, hentry, rfl, n, hstat, hexec⟩
    obtain ⟨hname, text, rfl⟩ := hfile hentry
    rw [hlossy]
    obtain ⟨hends, hlimits⟩ := (FileTree.stat_join hplace.resolves hname).1 hstat
    exact ⟨place, n, hplace, hends, hexec, hlimits⟩
  · rintro ⟨place, n, hplace, hends, hexec, hlimits⟩
    obtain ⟨entry, hentry⟩ := hends.exists_mem_children
    have hstat := (FileTree.stat_join hplace.resolves (hfile hentry).1).2 ⟨hends, hlimits⟩
    exact ⟨place, hplace, _, hentry, hlossy name, n, hstat, hexec⟩

/-! ## All directories -/

lemma mem_commandNames :
    name ∈ m.commandNames path ↔
      ∃ dir ∈ path.splitOn 0x3A, dir ≠ [] ∧ name ∈ m.executables dir := by
  simp [commandNames, searchDirectories, and_assoc]

/-- The names of the programs on a search path. -/
structure ProgramIndex (m : Machine) : Prop where
  /-- A name is that of a program that some directory lists, and that can be reached. -/
  mem_iff : ∀ path name, name ∈ m.commandNames path ↔
    ∃ dir ∈ path.splitOn 0x3A, ∃ place n, m.Lists dir place ∧
      m.files.Ends place (Bytes.ofString name) n ∧ n.isExecutable = true ∧
      m.files.WithinLimits m.place dir place (Bytes.ofString name)
  /-- Only the directories that can be listed count, in any order and however often. -/
  congr : ∀ path path',
    (∀ dir place, m.Lists dir place → (dir ∈ path.splitOn 0x3A ↔ dir ∈ path'.splitOn 0x3A)) →
      m.commandNames path = m.commandNames path'
  append : ∀ path path',
    m.commandNames (path ++ 0x3A :: path') = (m.commandNames path).union (m.commandNames path')

end Machine

/-- A machine with one program in one directory. -/
def toolMachine : Machine :=
  ⟨⟨[([Bytes.ofString "b"], .directory .newDirectory),
    ([Bytes.ofString "b", Bytes.ofString "x"], .file [] ⟨0o755⟩ none)]⟩, [], [], none⟩

lemma isFileName_x : FileTree.IsFileName (Bytes.ofString "x") := by
  constructor <;> decide

lemma textNames_toolMachine : toolMachine.files.TextNames := by
  have hb : FileTree.IsFileName (Bytes.ofString "b") := by constructor <;> decide
  simp only [FileTree.TextNames, toolMachine, List.forall_mem_cons]
  simp [hb, isFileName_x]

/-- **The names on a search path are those of the programs in its directories**, for every machine
whose file names are text. -/
theorem program_index (m : Machine) (hnames : m.files.TextNames) : m.ProgramIndex := by
  refine ⟨?_, ?_, ?_⟩
  · intro path name
    rw [Machine.mem_commandNames]
    constructor
    · rintro ⟨dir, hmem, hdir, hname⟩
      exact ⟨dir, hmem, (Machine.mem_executables_iff hnames hdir).1 hname⟩
    · rintro ⟨dir, hmem, place, n, hplace, hrest⟩
      exact ⟨dir, hmem, hplace.named,
        (Machine.mem_executables_iff hnames hplace.named).2 ⟨place, n, hplace, hrest⟩⟩
  · intro path path' h
    refine NameSet.ext_of_mem ?_
    intro name
    simp only [Machine.mem_commandNames]
    refine exists_congr fun dir => and_congr_left ?_
    rintro ⟨hdir, hname⟩
    obtain ⟨place, hplace, -⟩ := (Machine.mem_executables hdir).1 hname
    exact h dir place hplace
  · intro path path'
    refine NameSet.ext_of_mem ?_
    intro name
    simp only [Machine.mem_commandNames, NameSet.mem_union, List.splitOn_append_cons_self,
      List.mem_append, or_and_right, exists_or]

theorem program_index_tool : toolMachine.files.TextNames ∧ toolMachine.ProgramIndex :=
  ⟨textNames_toolMachine, program_index toolMachine textNames_toolMachine⟩

/-! ## A path that is too long -/

/-- The directory of the program, with slashes behind its name. -/
def slashed (n : Nat) : Bytes :=
  [0x62] ++ List.replicate (n + 1) Path.slash

lemma length_slashed (n : Nat) : (slashed n).length = n + 2 := by
  simp only [slashed, List.length_append, List.length_singleton, List.length_replicate]
  omega

lemma mem_slashed {n : Nat} {b : UInt8} (h : b ∈ slashed n) : b = 0x62 ∨ b = Path.slash := by
  rw [slashed, List.mem_append, List.mem_singleton, List.mem_replicate] at h
  exact h.imp_right And.right

lemma names_replicate_slash (n : Nat) : Path.names (List.replicate n Path.slash) = [] := by
  induction n with
  | zero => rfl
  | succ n ih =>
      rw [List.replicate_succ, ← List.nil_append (_ :: _), Path.names_append_slash, ih]
      rfl

/-- The slashes ask for a directory and change nothing else. -/
lemma steps_slashed (n : Nat) : Path.steps (slashed n) = [Bytes.ofString "b", []] := by
  have hnames : Path.names (slashed n) = [Bytes.ofString "b"] := by
    rw [slashed, List.replicate_succ, Path.names_append_slash, names_replicate_slash]
    rfl
  have hlast : (slashed n).getLast? = some Path.slash := by
    rw [slashed, List.replicate_succ', ← List.append_assoc, List.getLast?_concat]
  rw [Path.steps, hnames, if_pos hlast]
  rfl

lemma lists_slashed {n : Nat} (hn : n + 2 ≤ FileTree.maxPath) :
    toolMachine.Lists (slashed n) [Bytes.ofString "b"] := by
  have hcheck : FileTree.checkPath (slashed n) = .ok () := by
    refine FileTree.checkPath_eq_ok.2 ⟨?_, by simp [slashed], by rwa [length_slashed]⟩
    intro h
    exact absurd (mem_slashed h) (by decide)
  have hfirst : toolMachine.files.turn [] (Bytes.ofString "b") = .enters [Bytes.ofString "b"] := rfl
  have hlast : toolMachine.files.turn [Bytes.ofString "b"] [] = .enters [Bytes.ofString "b"] := rfl
  have hwalk : toolMachine.files.walk .follow FileTree.maxLinks [] [Bytes.ofString "b", []]
      = .ok [Bytes.ofString "b"] := by
    simp [FileTree.walk_cons, hfirst, hlast]
  refine ⟨by simp [slashed], FileTree.resolve_eq_ok.2 ⟨hcheck, ?_⟩, .newDirectory, rfl, rfl⟩
  rw [steps_slashed]
  exact hwalk

/-- A program is passed over where the path to it is too long. -/
theorem program_behind_slashes_not_indexed :
    ¬ ∀ name, name ∈ toolMachine.commandNames (slashed 4093) ↔
      toolMachine.ProgramOn (slashed 4093) name := by
  have hone : (slashed 4093).splitOn 0x3A = [slashed 4093] := by
    refine List.splitOn_eq_singleton ?_
    intro h
    exact absurd (mem_slashed h) (by decide)
  have hprogram : toolMachine.ProgramOn (slashed 4093) "x" := by
    refine ⟨slashed 4093, by simp [hone], _, _, lists_slashed (by decide), .here rfl ?_, rfl⟩
    simp
  intro h
  obtain ⟨dir, hmem, hdir, hname⟩ := Machine.mem_commandNames.1 ((h "x").2 hprogram)
  obtain rfl : dir = slashed 4093 := by simpa [hone] using hmem
  obtain ⟨place, n, -, -, -, hlimits⟩ :=
    (Machine.mem_executables_iff textNames_toolMachine hdir).1 hname
  have hlong := FileTree.length_le_join (slashed 4093) isFileName_x
  have hshort := hlimits.short
  rw [length_slashed] at hlong
  exact absurd (hlong.trans hshort) (by decide)

end LineShell
