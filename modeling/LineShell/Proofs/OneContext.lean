import LineShell.Completion.Engine
import LineShell.Proofs.Cover
import LineShell.Proofs.Dispatch

/-!
# One context, one generator

The five classifiers recognise different nodes.  So whatever a line is and wherever the cursor
stands, a completion request is served by one completer at most, and nothing about it depends on
the order in which the completers are tried.

* `Node.contextKind?` — the one kind of context that a node has, if it has any.
* `contextKind?_eq_none_iff` — the nodes of a tree that have none.
* `ServedOnce` — what one request comes to.
* **`completion_served_once`** — so it goes for every line, position, snapshot and file system.
-/

namespace LineShell

/-! ## The kind of a node -/

/-- The kind of context that a node has: its classifier is the only one that recognises it. -/
def Node.contextKind? : Node → Option ContextKind
  | .chunk _ | .part _ => some .newCommand
  | .formPart _ ⟨_, _, _, .word _⟩ => none
  | .formPart _ ⟨_, _, _, .space _⟩ => some .newArgument
  | .primary _ _ ⟨_, _, _, .reference _⟩ => some .reference
  | .primary _ w ⟨_, _, _, .bareword _⟩ =>
    if w.item.primaries.length = 1 then
      some (if w.index = 0 then .commandHead else .argument)
    else none
  | .primary _ _ _ => none

lemma isSome_classify_iff {k : ContextKind} {n : Node} :
    (k.classify n).isSome = true ↔ n.contextKind? = some k := by
  match n with
  | .chunk _ | .part _
  | .formPart _ ⟨_, _, _, .word _⟩ | .formPart _ ⟨_, _, _, .space _⟩
  | .primary _ _ ⟨_, _, _, .reference _⟩
  | .primary _ _ ⟨_, _, _, .singleQuoted _ _⟩ | .primary _ _ ⟨_, _, _, .doubleQuoted _ _⟩ =>
      cases k <;> simp [ContextKind.classify, Context.reference, Context.newCommand,
        Context.commandHead, Context.newArgument, Context.argument, Node.simpleCompound,
        Node.contextKind?]
  | .primary _ w ⟨_, _, _, .bareword _⟩ =>
      by_cases hw : w.item.primaries.length = 1 <;> by_cases hi : w.index = 0 <;>
        cases k <;> simp [ContextKind.classify, Context.reference, Context.newCommand,
          Context.commandHead, Context.newArgument, Context.argument, Node.simpleCompound,
          Node.contextKind?, hw, hi]

lemma eq_of_classify {n : Node} {k k' : ContextKind} {ctx ctx' : Context}
    (h : k.classify n = some ctx) (h' : k'.classify n = some ctx') : k = k' := by
  have hk := isSome_classify_iff.1 (Option.isSome_of_eq_some h)
  have hk' := isSome_classify_iff.1 (Option.isSome_of_eq_some h')
  exact Option.some.inj (hk.symm.trans hk')

/-- The nodes that no completer is for: words, quoted segments, and bare text that is not the
whole of its word. -/
def Node.NotCompleted (c : Chunk) (n : Node) : Prop :=
  n.kind = .compound ∨ n.kind = .primary .singleQuoted ∨ n.kind = .primary .doubleQuoted ∨
    n.kind = .primary .bareword ∧
      ∃ m ∈ c.nodes, m.kind = .compound ∧ n.parent = some m.id ∧ 2 ≤ m.children.length

/-- The word around a segment is a node of the tree, and the segment is one of its own. -/
lemma Chunk.word_mem_nodes {c : Chunk} {f : Placed Form} {w : Placed Compound}
    {p : Placed Primary} (h : .primary f w p ∈ c.nodes) :
    .formPart f (w.withItem (.word w.item)) ∈ c.nodes ∧ p.item ∈ w.item.primaries := by
  refine ⟨?_, (holds_of_mem_nodes _ h).2.2.mem⟩
  rcases eq_root_or_mem_parts _ h with hroot | ⟨m, hm, hn⟩
  · exact absurd hroot (by simp)
  · match m, hm, hn with
    | .chunk d, _, hn => exact absurd hn (by simp [Node.parts])
    | .part ⟨_, _, _, .form g⟩, _, hn => exact absurd hn (by simp [Node.parts])
    | .formPart g ⟨_, _, _, .word v⟩, hm, hn =>
        obtain ⟨q, -, hq⟩ := List.mem_map.1 hn
        obtain ⟨rfl, rfl, -⟩ := Node.primary.inj hq
        exact hm

lemma length_children_word (f : Placed Form) (w : Placed Compound) :
    (Node.formPart f (w.withItem (.word w.item))).children.length = w.item.primaries.length := by
  have hitems := congrArg List.length (map_item_arrange (w.id + 1) 0 w.start w.item.primaries)
  rw [List.length_map] at hitems
  rw [← hitems]
  exact List.length_map _

theorem contextKind?_eq_none_iff {c : Chunk} {n : Node} (h : n ∈ c.nodes) :
    n.contextKind? = none ↔ n.NotCompleted c := by
  match n, h with
  | .chunk _, _ | .part ⟨_, _, _, .form _⟩, _ | .part ⟨_, _, _, .separator _⟩, _
  | .formPart _ ⟨_, _, _, .word _⟩, _ | .formPart _ ⟨_, _, _, .space _⟩, _
  | .primary _ _ ⟨_, _, _, .reference _⟩, _
  | .primary _ _ ⟨_, _, _, .singleQuoted _ _⟩, _
  | .primary _ _ ⟨_, _, _, .doubleQuoted _ _⟩, _ =>
      simp [Node.contextKind?, Node.NotCompleted, Node.kind, Primary.kind]
  | .primary f w ⟨i, j, start, .bareword t⟩, h =>
      obtain ⟨hword, hmem⟩ := Chunk.word_mem_nodes h
      have hpos : 0 < w.item.primaries.length := List.length_pos_of_mem hmem
      have hlength := length_children_word f w
      constructor
      · intro hnone
        have hw : w.item.primaries.length ≠ 1 := by
          intro hw
          simp [Node.contextKind?, hw] at hnone
        exact .inr (.inr (.inr ⟨rfl, _, hword, rfl, rfl, by omega⟩))
      · intro hnot
        obtain ⟨-, m, hm, -, hparent, hm2⟩ :
            (Node.primary f w ⟨i, j, start, .bareword t⟩).kind = .primary .bareword ∧ ∃ m ∈ c.nodes,
              m.kind = .compound ∧ some w.id = some m.id ∧ 2 ≤ m.children.length := by
          simpa [Node.NotCompleted, Node.kind, Primary.kind, Node.parent] using hnot
        obtain rfl := Chunk.eq_of_id_eq hword hm (Option.some.inj hparent)
        have hw : w.item.primaries.length ≠ 1 := by omega
        simp [Node.contextKind?, hw]

/-! ## The completers of the shell -/

/-- The kinds of context in the order in which the shell tries them. -/
def ContextKind.all : List ContextKind :=
  [.reference, .newCommand, .commandHead, .newArgument, .argument]

/-- The completer of the shell for a kind of context. -/
def standardCompleter (s : Settings) (list : Lister) : ContextKind → Completer Node
  | .reference => ⟨"variable", Context.reference, generateVariables s.variableStyle⟩
  | .newCommand => ⟨"command name", Context.newCommand, generateCommands s.commandStyle⟩
  | .commandHead => ⟨"command name", Context.commandHead, generateCommands s.commandStyle⟩
  | .newArgument =>
    ⟨"argument", Context.newArgument, generateFiles list s.channelCapacity s.styler⟩
  | .argument => ⟨"argument", Context.argument, generateFiles list s.channelCapacity s.styler⟩

lemma standardCompleters_eq (s : Settings) (list : Lister) :
    standardCompleters s list = ContextKind.all.map (standardCompleter s list) :=
  rfl

lemma classify_standardCompleter (s : Settings) (list : Lister) (k : ContextKind) :
    (standardCompleter s list k).classify = k.classify := by
  cases k <;> rfl

/-- The completer of the shell for a kind of context recognises the nodes of that kind. -/
lemma accepts_comp_standardCompleter (s : Settings) (list : Lister) (n : Node) :
    Completer.accepts n ∘ standardCompleter s list = fun k => decide (n.contextKind? = some k) := by
  funext k
  rw [Function.comp_apply, Completer.accepts, classify_standardCompleter, Bool.eq_iff_iff,
    isSome_classify_iff, decide_eq_true_iff]

theorem countP_standardCompleters_le (s : Settings) (list : Lister) (n : Node) :
    (standardCompleters s list).countP (Completer.accepts n) ≤ 1 := by
  rw [standardCompleters_eq, List.countP_map, accepts_comp_standardCompleter]
  cases n.contextKind? with
  | none => decide
  | some k => cases k <;> decide

section files

variable {list list' : Lister} {capacity : Nat} {styler : Option LsColors} {head : String}
  (snapshot : Snapshot) {tips : List String}

lemma generateFiles_of_error {e : FileError} (h : list (splitPath head).1 = .error e) :
    generateFiles list capacity styler head snapshot tips
      = .ok ([], tips ++ [listingTip (splitPath head).1 e]) := by
  rw [generateFiles]
  simp only [h]

lemma generateFiles_of_ok {entries : List Entry} (h : list (splitPath head).1 = .ok entries) :
    generateFiles list capacity styler head snapshot tips
      = (Channel.create capacity entries).map fun channel =>
          (fileCandidates styler (splitPath head).2 channel.drain, tips) := by
  rw [generateFiles]
  simp only [h]
  rfl

/-- The file generator lists no directory but the one that the head leads into. -/
lemma generateFiles_congr (h : list (splitPath head).1 = list' (splitPath head).1) :
    generateFiles list capacity styler head snapshot tips
      = generateFiles list' capacity styler head snapshot tips := by
  cases hlist : list' (splitPath head).1 with
  | error e => rw [generateFiles_of_error _ (h.trans hlist), generateFiles_of_error _ hlist]
  | ok entries => rw [generateFiles_of_ok _ (h.trans hlist), generateFiles_of_ok _ hlist]

/-- The file generator makes a tip, or candidates for the entries that it has received. -/
lemma generateFiles_cases {g : Generated}
    (h : generateFiles list capacity styler head snapshot tips = .ok g) :
    (∃ e, list (splitPath head).1 = .error e ∧
      g = ([], tips ++ [listingTip (splitPath head).1 e])) ∨
    ∃ received, g = (fileCandidates styler (splitPath head).2 received, tips) := by
  cases hlist : list (splitPath head).1 with
  | error e =>
      rw [generateFiles_of_error _ hlist] at h
      exact .inl ⟨e, rfl, (Except.ok.inj h).symm⟩
  | ok entries =>
      rw [generateFiles_of_ok _ hlist] at h
      cases hchannel : Channel.create capacity entries with
      | error e =>
          rw [hchannel] at h
          exact absurd h (by simp [Except.map])
      | ok channel =>
          rw [hchannel] at h
          exact .inr ⟨channel.drain, (Except.ok.inj h).symm⟩

lemma length_tips_generateFiles_le {g : Generated}
    (h : generateFiles list capacity styler head snapshot tips = .ok g) :
    g.2.length ≤ tips.length + 1 := by
  rcases generateFiles_cases snapshot h with ⟨e, -, rfl⟩ | ⟨received, rfl⟩
  · simp
  · exact Nat.le_succ _

lemma exists_generateFiles_eq_ok (h : capacity ≤ Channel.maxCapacity) :
    ∃ g, generateFiles list capacity styler head snapshot tips = .ok g := by
  cases hlist : list (splitPath head).1 with
  | error e => exact ⟨_, generateFiles_of_error snapshot hlist⟩
  | ok entries =>
      have hcreate : ¬ Channel.maxCapacity < capacity := Nat.not_lt.2 h
      rw [generateFiles_of_ok _ hlist]
      rw [Channel.create]
      rw [if_neg hcreate]
      exact ⟨_, rfl⟩

end files

lemma generate_standardCompleter_congr {list list' : Lister} {head : String}
    (h : list (splitPath head).1 = list' (splitPath head).1) (s : Settings) (k : ContextKind)
    (snapshot : Snapshot) (tips : List String) :
    (standardCompleter s list k).generate head snapshot tips
      = (standardCompleter s list' k).generate head snapshot tips := by
  cases k with
  | reference | newCommand | commandHead => rfl
  | newArgument | argument => exact generateFiles_congr snapshot h

lemma length_tips_standardCompleter_le {s : Settings} {list : Lister} {k : ContextKind}
    {head : String} {snapshot : Snapshot} {tips : List String} {g : Generated}
    (h : (standardCompleter s list k).generate head snapshot tips = .ok g) :
    g.2.length ≤ tips.length + 1 := by
  cases k with
  | reference | newCommand | commandHead =>
      obtain rfl := Except.ok.inj h
      exact Nat.le_succ _
  | newArgument | argument => exact length_tips_generateFiles_le snapshot h

lemma exists_generate_standardCompleter_eq_ok {s : Settings}
    (h : s.channelCapacity ≤ Channel.maxCapacity) (list : Lister) (k : ContextKind)
    (head : String) (snapshot : Snapshot) (tips : List String) :
    ∃ g, (standardCompleter s list k).generate head snapshot tips = .ok g := by
  cases k with
  | reference | newCommand | commandHead => exact ⟨_, rfl⟩
  | newArgument | argument => exact exists_generateFiles_eq_ok snapshot h

/-! ## One request -/

/-- A request that one completer serves at most, in the settings `s`, whatever the directories
hold. -/
structure ServedOnce (s : Settings) (line : String) (pos : Nat) (snapshot : Snapshot) :
    Prop where
  /-- At most one completer recognises the node at the cursor. -/
  accepted : ∀ list,
    (standardCompleters s list).countP (Completer.accepts (cursorNode line pos)) ≤ 1
  /-- At most one generator is called, and only once. -/
  called : ∀ list d, dispatch (standardCompleters s list) (cursorNode line pos) snapshot = .ok d →
    d.calls.length ≤ 1
  /-- There is one tip at most. -/
  tips : ∀ list o, complete (standardCompleters s list) line pos snapshot = .ok o →
    o.tips.length ≤ 1
  /-- All but one of the directories could hold anything. -/
  listed : ∃ dir, ∀ list list' : Lister, list dir = list' dir →
    complete (standardCompleters s list) line pos snapshot
      = complete (standardCompleters s list') line pos snapshot
  /-- The completers could be tried in any order. -/
  order : ∀ list completers, completers.Perm (standardCompleters s list) →
    complete completers line pos snapshot = complete (standardCompleters s list) line pos snapshot
  /-- There is an outcome, if a channel can have the capacity that is set. -/
  answered : s.channelCapacity ≤ Channel.maxCapacity → ∀ list,
    ∃ o, complete (standardCompleters s list) line pos snapshot = .ok o

lemma exists_of_complete_eq_ok {completers : List (Completer Node)} {line : String} {pos : Nat}
    {snapshot : Snapshot} {o : Outcome} (h : complete completers line pos snapshot = .ok o) :
    ∃ d, dispatch completers (cursorNode line pos) snapshot = .ok d ∧ o = d.outcome := by
  rw [complete] at h
  cases hd : dispatch completers (cursorNode line pos) snapshot with
  | error e =>
      rw [hd] at h
      exact absurd h (by simp [Except.map])
  | ok d =>
      rw [hd] at h
      exact ⟨d, rfl, (Except.ok.inj h).symm⟩

/-- Two rows of completers of the shell over directories that agree where the head of the node
leads. -/
lemma dispatch_standardCompleters_congr {n : Node} {list list' : Lister} (s : Settings)
    (snapshot : Snapshot)
    (h : ∀ (k : ContextKind) (ctx : Context), k.classify n = some ctx →
      list (splitPath ctx.head).1 = list' (splitPath ctx.head).1) :
    dispatch (standardCompleters s list) n snapshot
      = dispatch (standardCompleters s list') n snapshot := by
  refine dispatchFrom_congr ?_
  rw [standardCompleters_eq, standardCompleters_eq, List.forall₂_map_left_iff,
    List.forall₂_map_right_iff, List.forall₂_same]
  intro k _
  refine ⟨by cases k <;> rfl, ?_, ?_⟩
  · rw [classify_standardCompleter, classify_standardCompleter]
  · intro ctx hctx tips
    rw [classify_standardCompleter] at hctx
    exact generate_standardCompleter_congr (h k ctx hctx) s k snapshot tips

/-- One directory is all that the completers of the shell read for a node. -/
lemma exists_directory (n : Node) : ∃ dir, ∀ list list' : Lister, list dir = list' dir →
    ∀ (k : ContextKind) (ctx : Context), k.classify n = some ctx →
      list (splitPath ctx.head).1 = list' (splitPath ctx.head).1 := by
  cases hn : n.contextKind? with
  | none =>
      refine ⟨"", fun list list' _ k ctx hctx => ?_⟩
      have hk := isSome_classify_iff.1 (Option.isSome_of_eq_some hctx)
      exact absurd (hn.symm.trans hk) (by simp)
  | some k =>
      obtain ⟨ctx, hctx⟩ := Option.isSome_iff_exists.1 (isSome_classify_iff.2 hn)
      refine ⟨(splitPath ctx.head).1, fun list list' hdir k' ctx' hctx' => ?_⟩
      obtain rfl := eq_of_classify hctx hctx'
      obtain rfl : ctx = ctx' := Option.some.inj (hctx.symm.trans hctx')
      exact hdir

lemma servedOnce (s : Settings) (line : String) (pos : Nat) (snapshot : Snapshot) :
    ServedOnce s line pos snapshot := by
  have hcount := fun list => countP_standardCompleters_le s list (cursorNode line pos)
  refine ⟨hcount, ?_, ?_, ?_, ?_, ?_⟩
  · intro list d hd
    exact Nat.le_trans (length_calls_le hd) (hcount list)
  · intro list o ho
    obtain ⟨d, hd, rfl⟩ := exists_of_complete_eq_ok ho
    have hcalls := Nat.le_trans (length_calls_le hd) (hcount list)
    have htips : d.outcome.tips.length ≤ ([] : List String).length + d.calls.length := by
      refine length_tips_le ?_ hd
      intro e he head tips g hg
      rw [standardCompleters_eq] at he
      obtain ⟨k, -, rfl⟩ := List.mem_map.1 he
      exact length_tips_standardCompleter_le hg
    rw [List.length_nil] at htips
    omega
  · obtain ⟨dir, hdir⟩ := exists_directory (cursorNode line pos)
    refine ⟨dir, fun list list' h => ?_⟩
    rw [complete, complete, dispatch_standardCompleters_congr s snapshot (hdir list list' h)]
  · intro list completers h
    exact (map_outcome_dispatch_perm h.symm (hcount list)).symm
  · intro hcapacity list
    obtain ⟨d, hd⟩ : ∃ d, dispatch (standardCompleters s list) (cursorNode line pos) snapshot
        = .ok d := by
      refine exists_dispatchFrom_eq_ok ?_ 0 []
      intro e he head tips
      rw [standardCompleters_eq] at he
      obtain ⟨k, -, rfl⟩ := List.mem_map.1 he
      exact exists_generate_standardCompleter_eq_ok hcapacity list k head snapshot tips
    refine ⟨d.outcome, ?_⟩
    rw [complete, hd]
    rfl

/-- **A node has one context at most, and a request one generator at most.** -/
theorem completion_served_once (line : String) :
    (∀ n ∈ (parse line.toList).nodes,
      (∀ k k' : ContextKind, (k.classify n).isSome = true → (k'.classify n).isSome = true →
        k = k') ∧
      ((∀ k : ContextKind, k.classify n = none) ↔ n.NotCompleted (parse line.toList))) ∧
    ∀ (s : Settings) (pos : Nat) (snapshot : Snapshot), ServedOnce s line pos snapshot := by
  refine ⟨fun n hn => ⟨?_, ?_⟩, fun s pos snapshot => servedOnce s line pos snapshot⟩
  · intro k k' hk hk'
    exact Option.some.inj ((isSome_classify_iff.1 hk).symm.trans (isSome_classify_iff.1 hk'))
  · rw [← contextKind?_eq_none_iff hn]
    constructor
    · intro hnone
      cases hkind : n.contextKind? with
      | none => rfl
      | some k =>
          have hsome := isSome_classify_iff.2 hkind
          rw [hnone k] at hsome
          exact absurd hsome (by simp)
    · intro hkind k
      by_contra hsome
      have hk := isSome_classify_iff.1 (Option.isSome_iff_ne_none.2 hsome)
      exact absurd (hkind.symm.trans hk) (by simp)

end LineShell
