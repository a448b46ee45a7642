import LineShell.Completion.Snapshot

/-!
# The global scope

All variables of the shell in one space of names.  A function is a variable too: its body is the
value of its name behind a marker.

* `Scope` — bindings of names to values, in the order of the names; each name is bound once.
* `Scope.get?`, `Scope.set`, `Scope.remove` — reading and changing; `Scope.get?_set`,
  `Scope.get?_remove` relate them.
* `Scope.define`, `Scope.function?` — the same for functions, under their marked names.
* **`Scope.mem_names_iff`** — the names are exactly those that have a value.
-/

namespace LineShell

abbrev Binding := String × String

/-- Puts a binding into its place, in front of greater names; it takes the place of one with the
same name. -/
def setBinding (name value : String) : List Binding → List Binding
  | [] => [(name, value)]
  | b :: bs =>
    if name < b.1 then (name, value) :: b :: bs
    else if name = b.1 then (name, value) :: bs
    else b :: setBinding name value bs

theorem mem_setBinding {name value : String} {x : Binding} {bs : List Binding}
    (h : x ∈ setBinding name value bs) : x = (name, value) ∨ x ∈ bs := by
  induction bs with
  | nil => simpa [setBinding] using h
  | cons b bs ih =>
    unfold setBinding at h
    split at h
    · simpa using h
    · split at h
      · rcases List.mem_cons.1 h with h | h
        · exact .inl h
        · exact .inr (List.mem_cons_of_mem _ h)
      · rcases List.mem_cons.1 h with h | h
        · exact .inr (h ▸ List.mem_cons_self)
        · exact (ih h).imp_right (List.mem_cons_of_mem _)

theorem pairwise_setBinding {name value : String} {bs : List Binding}
    (h : bs.Pairwise (·.1 < ·.1)) : (setBinding name value bs).Pairwise (·.1 < ·.1) := by
  induction bs with
  | nil => simp [setBinding]
  | cons b bs ih =>
    rw [List.pairwise_cons] at h
    unfold setBinding
    split
    · next hlt =>
      refine List.pairwise_cons.2 ⟨fun x hx => ?_, List.pairwise_cons.2 h⟩
      rcases List.mem_cons.1 hx with rfl | hx
      · exact hlt
      · exact String.lt_trans hlt (h.1 x hx)
    · split
      · next heq => exact List.pairwise_cons.2 ⟨fun x hx => heq ▸ h.1 x hx, h.2⟩
      · next hlt hne =>
        refine List.pairwise_cons.2 ⟨fun x hx => ?_, ih h.2⟩
        rcases mem_setBinding hx with rfl | hx
        · rcases String.le_total name b.1 with hle | hle
          · exact absurd (String.le_antisymm hle (String.not_lt.1 hlt)) hne
          · exact String.not_le.1 fun hxn => hne (String.le_antisymm hxn hle)
        · exact h.1 x hx

theorem lookup_binding (x : String) (b : Binding) (bs : List Binding) :
    (b :: bs).lookup x = if x = b.1 then some b.2 else bs.lookup x := by
  obtain ⟨name, value⟩ := b
  by_cases h : x = name
  · simp [h]
  · simp [List.lookup_cons, beq_false_of_ne h, h]

theorem lookup_setBinding {name value x : String} {bs : List Binding} :
    (setBinding name value bs).lookup x = if x = name then some value else bs.lookup x := by
  induction bs with
  | nil => rw [setBinding, lookup_binding]
  | cons b bs ih =>
    unfold setBinding
    split
    · rw [lookup_binding]
    · split
      · next h =>
        rw [lookup_binding, lookup_binding, ← h]
        split <;> rfl
      · next hne =>
        rw [lookup_binding, lookup_binding, ih]
        split
        · next h => rw [if_neg (h ▸ Ne.symm hne)]
        · rfl

theorem lookup_filter_ne {name x : String} {bs : List Binding} :
    (bs.filter (·.1 ≠ name)).lookup x = if x = name then none else bs.lookup x := by
  induction bs with
  | nil => simp
  | cons b bs ih =>
    rw [List.filter_cons, lookup_binding]
    by_cases hb : b.1 = name
    · rw [if_neg (by simpa using hb), ih, hb]
      split <;> rfl
    · rw [if_pos (by simpa using hb), lookup_binding, ih]
      split
      · next h => rw [if_neg (h ▸ hb)]
      · rfl

/-- All variables, in byte order of their names. -/
structure Scope where
  toList : List Binding
  sorted : toList.Pairwise (·.1 < ·.1)

namespace Scope

def empty : Scope :=
  ⟨[], List.Pairwise.nil⟩

instance : Inhabited Scope := ⟨empty⟩

@[ext] theorem ext {s t : Scope} (h : s.toList = t.toList) : s = t := by
  cases s; cases t; cases h; rfl

instance : DecidableEq Scope := fun s t =>
  decidable_of_iff (s.toList = t.toList) ⟨ext, congrArg toList⟩

def get? (s : Scope) (name : String) : Option String :=
  s.toList.lookup name

def set (s : Scope) (name value : String) : Scope :=
  ⟨setBinding name value s.toList, pairwise_setBinding s.sorted⟩

def remove (s : Scope) (name : String) : Scope :=
  ⟨s.toList.filter (·.1 ≠ name), s.sorted.filter _⟩

/-- The variables of a list; of two values for one name the later one stays. -/
def ofList (bs : List Binding) : Scope :=
  bs.foldl (fun s b => s.set b.1 b.2) empty

/-- The names of all variables, in order. -/
def names (s : Scope) : List String :=
  s.toList.map Prod.fst

def size (s : Scope) : Nat :=
  s.toList.length

/-- The name under which a function is kept. -/
def functionName (name : String) : String :=
  functionMarker ++ name

def define (s : Scope) (name body : String) : Scope :=
  s.set (functionName name) body

def function? (s : Scope) (name : String) : Option String :=
  s.get? (functionName name)

/-! ## Reading after writing -/

@[simp] theorem get?_empty (name : String) : empty.get? name = none := rfl

theorem get?_set (s : Scope) (name value x : String) :
    (s.set name value).get? x = if x = name then some value else s.get? x :=
  lookup_setBinding

@[simp] theorem get?_set_self (s : Scope) (name value : String) :
    (s.set name value).get? name = some value := by
  simp [get?_set]

theorem get?_set_of_ne (s : Scope) {name x : String} (value : String) (h : x ≠ name) :
    (s.set name value).get? x = s.get? x := by
  simp [get?_set, h]

theorem get?_remove (s : Scope) (name x : String) :
    (s.remove name).get? x = if x = name then none else s.get? x :=
  lookup_filter_ne

/-- The names are exactly those that have a value. -/
theorem mem_names_iff {s : Scope} {name : String} :
    name ∈ s.names ↔ (s.get? name).isSome := by
  unfold names get?
  induction s.toList with
  | nil => simp
  | cons b bs ih =>
    rw [List.map_cons, List.mem_cons, lookup_binding, ih]
    by_cases h : name = b.1 <;> simp [h]

end Scope

end LineShell
