import LineShell.Style.Sgr
import Mathlib.Data.List.Induction

/-!
# Codes in groups

A list of codes is written group after group, and no sign says where a group ends: `5` makes text
blink when it stands alone, and says what kind of colour follows behind `38`.  Reading finds the
groups all the same, so what a list says is what its groups say, one after the other.

* `Param`, `Spelling` — a parameter as it is written, and the texts that spell a number.
* `WrittenGroup` — a group as it is written; `WrittenGroup.apply` is what it says.
* `groups_append` — reading takes one group from the front and leaves the rest as it was.
* `apply_apply_of_between` — a group that is said again after others says nothing new.
* `CutOff` — the front of a colour whose end is missing.
* **`sgr_read_by_groups`** — what follows for every list of groups.
-/

namespace LineShell.Sgr

/-! ## Groups as they are written -/

/-- A parameter: any text without the sign between parameters. -/
structure Param where
  text : List Char
  unseparated : ';' ∉ text

/-- The number that a parameter stands for, if it is one of eight bits. -/
def Param.number (p : Param) : Option UInt8 :=
  Text.parseByte p.text

/-- The parameters that spell a number: it may have zeros or a plus sign in front. -/
abbrev Spelling (n : UInt8) := {p : Param // p.number = some n}

/-- The code that announces a colour. -/
def Ground.code : Ground → UInt8
  | foreground => 38
  | background => 48

@[simp] lemma Ground.ofCode_code (g : Ground) : Ground.ofCode g.code = some g := by
  cases g <;> rfl

lemma Ground.ofCode_eq_none_iff {n : UInt8} : Ground.ofCode n = none ↔ n ≠ 38 ∧ n ≠ 48 := by
  unfold Ground.ofCode
  split
  · next h => simp [h]
  · next h => split <;> simp_all

/-- A group as it is written. -/
inductive WrittenGroup where
  /-- A parameter that announces no colour: a code, known or not, or no number at all. -/
  | single (p : Param) (alone : p.number ≠ some 38 ∧ p.number ≠ some 48)
  /-- A colour of the palette. -/
  | palette (ground : Ground) (announced : Spelling ground.code) (kind : Spelling 5)
      (n : UInt8) (index : Spelling n)
  /-- A mixture of red, green and blue. -/
  | mixture (ground : Ground) (announced : Spelling ground.code) (kind : Spelling 2)
      (r g b : UInt8) (red : Spelling r) (green : Spelling g) (blue : Spelling b)

namespace WrittenGroup

def params : WrittenGroup → List Param
  | single p _ => [p]
  | palette _ announced kind _ index => [announced, kind, index]
  | mixture _ announced kind _ _ _ red green blue => [announced, kind, red, green, blue]

/-- What a group says: a parameter by itself what its code says, and a colour nothing but that the
ground is painted. -/
def apply : WrittenGroup → Style → Style
  | single p _ => match p.number with
    | some n => (Group.code n).apply
    | none => id
  | palette ground _ _ n _ => ground.paint (.fixed n)
  | mixture ground _ _ r g b _ _ _ => ground.paint (.rgb r g b)

/-- Whether a group spells a colour out. -/
def IsColor : WrittenGroup → Prop
  | single _ _ => False
  | palette .. | mixture .. => True

/-- The groups that are read from a written one: one, or none where it is no number. -/
def groups : WrittenGroup → List Group
  | single p _ => p.number.toList.map .code
  | palette ground _ _ n _ => [.color ground (.fixed n)]
  | mixture ground _ _ r g b _ _ _ => [.color ground (.rgb r g b)]

/-- The style that a row of groups makes, the first group first. -/
def style (ws : List WrittenGroup) : Style :=
  ws.foldl (fun s w => w.apply s) .plain

end WrittenGroup

/-- A list of codes as it is written. -/
def written (ps : List Param) : String :=
  String.ofList ([';'].intercalate (ps.map Param.text))

/-- The front of a spelt-out colour, cut off before its last parameter. -/
def CutOff (ps : List Param) : Prop :=
  ∃ w : WrittenGroup, w.IsColor ∧ ps ≠ [] ∧ ps <+: w.params ∧ ps ≠ w.params

/-! ## Reading -/

/-- The numbers of a list are those of its parameters; the empty list has an empty parameter. -/
lemma params_written {ps : List Param} (h : ps ≠ []) :
    params (written ps) = ps.map Param.number := by
  have hfree : ∀ text ∈ ps.map Param.text, ';' ∉ text := by
    intro text htext
    obtain ⟨p, -, rfl⟩ := List.mem_map.1 htext
    exact p.unseparated
  have hne : ps.map Param.text ≠ [] := by simpa using h
  rw [params, written, String.toList_ofList, List.splitOn_intercalate ';' hfree hne, List.map_map]
  rfl

lemma groups_none (ps : List (Option UInt8)) : groups (none :: ps) = groups ps := by
  rw [groups]

lemma groups_of_ofCode_eq_none {n : UInt8} (h : Ground.ofCode n = none)
    (ps : List (Option UInt8)) : groups (some n :: ps) = .code n :: groups ps := by
  rw [groups, h]

/-- A code that announces a colour takes what spells it, or what was looked at. -/
lemma groups_code (g : Ground) (ps : List (Option UInt8)) :
    groups (some g.code :: ps)
      = ((readColor ps).1.map (Group.color g)).toList ++ groups (readColor ps).2 := by
  rw [groups, g.ofCode_code]

lemma groups_params_written (ps : List Param) :
    groups (params (written ps)) = groups (ps.map Param.number) := by
  by_cases h : ps = []
  · -- an empty text is one empty parameter, which is no number
    subst h
    have hparams : params (written []) = [none] := by decide
    rw [hparams, groups_none]
    rfl
  · rw [params_written h]

/-- One group is read from the front, and the rest is read as if it stood alone. -/
lemma groups_append (w : WrittenGroup) (ps : List (Option UInt8)) :
    groups (w.params.map Param.number ++ ps) = w.groups ++ groups ps := by
  cases w with
  | single p alone =>
      rw [WrittenGroup.params, WrittenGroup.groups, List.map_singleton, List.singleton_append]
      cases hn : p.number with
      | none => rw [groups_none]; rfl
      | some n =>
          have hcode : Ground.ofCode n = none := by
            rw [hn] at alone
            exact Ground.ofCode_eq_none_iff.2 (by simpa using alone)
          rw [groups_of_ofCode_eq_none hcode]
          rfl
  | palette ground announced kind n index =>
      simp only [WrittenGroup.params, List.map_cons, List.map_nil, announced.2, kind.2, index.2,
        List.cons_append, List.nil_append, groups_code, readColor]
      rfl
  | mixture ground announced kind r g b red green blue =>
      simp only [WrittenGroup.params, List.map_cons, List.map_nil, announced.2, kind.2, red.2,
        green.2, blue.2, List.cons_append, List.nil_append, groups_code, readColor]
      rfl

/-- Groups at the front of a list are read one by one. -/
lemma groups_flatMap_append (ws : List WrittenGroup) (ps : List (Option UInt8)) :
    groups ((ws.flatMap WrittenGroup.params).map Param.number ++ ps)
      = ws.flatMap WrittenGroup.groups ++ groups ps := by
  induction ws with
  | nil => rfl
  | cons w ws ih =>
      rw [List.flatMap_cons, List.map_append, List.append_assoc, groups_append, ih,
        List.flatMap_cons, List.append_assoc]

lemma CutOff.exists_take {ps : List Param} (h : CutOff ps) :
    ∃ (w : WrittenGroup) (k : Nat), w.IsColor ∧ 0 < k ∧ k < w.params.length ∧
      ps = w.params.take k := by
  obtain ⟨w, hcolor, hne, hfront, hcut⟩ := h
  refine ⟨w, ps.length, hcolor, List.length_pos_iff.2 hne, ?_, List.prefix_iff_eq_take.1 hfront⟩
  exact Nat.lt_of_le_of_ne hfront.length_le fun hlength => hcut (hfront.eq_of_length hlength)

/-- The front of a colour says nothing. -/
lemma groups_of_cutOff {ps : List Param} (h : CutOff ps) : groups (ps.map Param.number) = [] := by
  obtain ⟨w, k, hcolor, hpos, hlt, rfl⟩ := h.exists_take
  cases w with
  | single p alone => exact hcolor.elim
  | palette ground announced kind n index =>
      simp only [WrittenGroup.params, List.length_cons, List.length_nil] at hlt
      obtain rfl | rfl : k = 1 ∨ k = 2 := by omega
      all_goals
        simp [WrittenGroup.params, announced.2, kind.2, groups_code, readColor, groups]
  | mixture ground announced kind r g b red green blue =>
      simp only [WrittenGroup.params, List.length_cons, List.length_nil] at hlt
      obtain rfl | rfl | rfl | rfl : k = 1 ∨ k = 2 ∨ k = 3 ∨ k = 4 := by omega
      all_goals
        simp [WrittenGroup.params, announced.2, kind.2, red.2, green.2, groups_code, readColor,
          groups]

/-! ## What groups say -/

lemma applyAll_append (gs hs : List Group) (s : Style) :
    applyAll (gs ++ hs) s = applyAll hs (applyAll gs s) :=
  List.foldl_append

lemma applyAll_groups (w : WrittenGroup) (s : Style) : applyAll w.groups s = w.apply s := by
  cases w with
  | single p alone =>
      rw [WrittenGroup.groups, WrittenGroup.apply]
      cases p.number <;> rfl
  | palette ground announced kind n index => rfl
  | mixture ground announced kind r g b red green blue => rfl

lemma applyAll_flatMap_groups (ws : List WrittenGroup) (s : Style) :
    applyAll (ws.flatMap WrittenGroup.groups) s = ws.foldl (fun s w => w.apply s) s := by
  induction ws generalizing s with
  | nil => rfl
  | cons w ws ih => rw [List.flatMap_cons, applyAll_append, applyAll_groups, ih, List.foldl_cons]

/-- The style of a list that begins with groups: what stands behind them changes the style that
they make. -/
lemma ofSgr_written_append (ws : List WrittenGroup) (ps : List Param) :
    Style.ofSgr (written (ws.flatMap WrittenGroup.params ++ ps))
      = (applyAll (groups (ps.map Param.number)) (WrittenGroup.style ws)).ifStyled := by
  rw [Style.ofSgr, groups_params_written, List.map_append, groups_flatMap_append, applyAll_append,
    applyAll_flatMap_groups]
  rfl

lemma ofSgr_written (ws : List WrittenGroup) :
    Style.ofSgr (written (ws.flatMap WrittenGroup.params)) = (WrittenGroup.style ws).ifStyled := by
  have h := ofSgr_written_append ws []
  rw [List.append_nil] at h
  rw [h, List.map_nil, groups]
  rfl

/-! ## Groups that are said again -/

/-- What a group can do to a style. -/
inductive Effect : (Style → Style) → Prop where
  | forget : Effect fun _ => .plain
  | switch (a : Attribute) : Effect fun s => s.withAttribute a
  | paint (ground : Ground) (c : Color) : Effect (ground.paint c)
  | nothing : Effect id

lemma effect_apply (g : Group) : Effect g.apply := by
  cases g with
  | color ground c => exact .paint ground c
  | code n =>
      by_cases hn : n = 0
      · subst hn
        exact .forget
      · cases ha : attribute? n with
        | some a =>
            have h : (Group.code n).apply = fun s => s.withAttribute a := by
              funext s
              simp only [Group.apply, if_neg hn, ha]
            rw [h]
            exact .switch a
        | none =>
            cases hc : paletteColor? n with
            | some p =>
                have h : (Group.code n).apply = p.1.paint p.2 := by
                  funext s
                  simp only [Group.apply, if_neg hn, ha, hc]
                rw [h]
                exact .paint p.1 p.2
            | none =>
                have h : (Group.code n).apply = id := by
                  funext s
                  simp only [Group.apply, if_neg hn, ha, hc, id]
                rw [h]
                exact .nothing

namespace Effect

variable {f g : Style → Style}

lemma idempotent (h : Effect g) (s : Style) : g (g s) = g s := by
  cases h with
  | forget | nothing => rfl
  | switch a => cases a <;> rfl
  | paint ground c => cases ground <;> rfl

/-- An effect before another one either forgets all, or could as well come after it, or is undone
by it. -/
lemma forgets_or_commutes_or_undone (hg : Effect g) (hf : Effect f) :
    (∀ s, g s = .plain) ∨ (∀ s, f (g s) = g (f s)) ∨ ∀ s, f (g s) = f s := by
  cases hg with
  | forget => exact .inl fun _ => rfl
  | nothing => exact .inr (.inl fun _ => rfl)
  | switch a =>
      cases hf with
      | forget => exact .inr (.inr fun _ => rfl)
      | nothing => exact .inr (.inl fun _ => rfl)
      | switch b => exact .inr (.inl fun s => by cases a <;> cases b <;> rfl)
      | paint ground c => exact .inr (.inl fun s => by cases a <;> cases ground <;> rfl)
  | paint ground c =>
      cases hf with
      | forget => exact .inr (.inr fun _ => rfl)
      | nothing => exact .inr (.inl fun _ => rfl)
      | switch b => exact .inr (.inl fun s => by cases b <;> cases ground <;> rfl)
      | paint ground' c' =>
          match ground, ground' with
          | .foreground, .foreground | .background, .background =>
              exact .inr (.inr fun _ => rfl)
          | .foreground, .background | .background, .foreground =>
              exact .inr (.inl fun _ => rfl)

end Effect

/-- A group that is said again after others says nothing new. -/
lemma apply_apply_of_between (g : Group) (gs : List Group) (s : Style) :
    g.apply (applyAll gs (g.apply s)) = g.apply (applyAll gs s) := by
  have hg := effect_apply g
  -- the first saying is moved behind one group after the other, until it meets the second
  induction gs generalizing s with
  | nil => exact hg.idempotent s
  | cons f gs ih =>
      show g.apply (applyAll gs (f.apply (g.apply s))) = g.apply (applyAll gs (f.apply s))
      rcases hg.forgets_or_commutes_or_undone (effect_apply f) with hforget | hcommute | hundone
      · rw [hforget, hforget]
      · rw [hcommute, ih]
      · rw [hundone]

/-- A row of groups that is said again says nothing new. -/
lemma applyAll_applyAll (gs : List Group) (s : Style) :
    applyAll gs (applyAll gs s) = applyAll gs s := by
  induction gs using List.reverseRecOn generalizing s with
  | nil => rfl
  | append_singleton gs g ih =>
      have hlast : ∀ t, applyAll (gs ++ [g]) t = g.apply (applyAll gs t) := fun t =>
        applyAll_append gs [g] t
      rw [hlast, hlast, apply_apply_of_between, ih]

/-! ## Colours and attributes -/

lemma has_withAttribute (s : Style) (a b : Attribute) :
    (s.withAttribute b).has a = (decide (a = b) || s.has a) := by
  cases a <;> cases b <;> rfl

lemma has_paint (ground : Ground) (c : Color) (s : Style) (a : Attribute) :
    (ground.paint c s).has a = s.has a := by
  cases ground <;> cases a <;> rfl

/-- Two styles with the same attributes still have the same ones after a group. -/
lemma Effect.has_congr {f : Style → Style} (h : Effect f) {s t : Style}
    (hst : ∀ a, s.has a = t.has a) (a : Attribute) : (f s).has a = (f t).has a := by
  cases h with
  | forget => rfl
  | nothing => exact hst a
  | switch b => rw [has_withAttribute, has_withAttribute, hst]
  | paint ground c => rw [has_paint, has_paint, hst]

lemma applyAll_has_congr (gs : List Group) {s t : Style} (hst : ∀ a, s.has a = t.has a) :
    ∀ a, (applyAll gs s).has a = (applyAll gs t).has a := by
  induction gs generalizing s t with
  | nil => exact hst
  | cons g gs ih => exact ih ((effect_apply g).has_congr hst)

lemma WrittenGroup.has_apply_of_isColor {w : WrittenGroup} (h : w.IsColor) (s : Style)
    (a : Attribute) : (w.apply s).has a = s.has a := by
  cases w with
  | single p alone => exact h.elim
  | palette ground announced kind n index => exact has_paint ground _ s a
  | mixture ground announced kind r g b red green blue => exact has_paint ground _ s a

lemma attributes_congr {s t : Style} (h : ∀ a, s.has a = t.has a) :
    s.attributes = t.attributes :=
  List.filter_congr fun a _ => h a

@[simp] lemma getD_ifStyled (s : Style) : s.ifStyled.getD .plain = s := by
  unfold Style.ifStyled
  split
  · next h => exact h.symm
  · rfl

/-! ## Lists of groups -/

/-- What a list of groups, with anything behind it, comes to. -/
structure ReadByGroups (ws : List WrittenGroup) : Prop where
  /-- The list says what its groups say, one after the other, and nothing if that is nothing. -/
  style : Style.ofSgr (written (ws.flatMap WrittenGroup.params))
    = if WrittenGroup.style ws = .plain then none else some (WrittenGroup.style ws)
  /-- Behind code `0` nothing is known of the groups before it. -/
  forgets : ∀ (zero : Spelling 0) (ps : List Param),
    Style.ofSgr (written (ws.flatMap WrittenGroup.params ++ zero.1 :: ps))
      = Style.ofSgr (written ps)
  /-- To say the list twice is to say it once. -/
  repeats : Style.ofSgr (written ((ws ++ ws).flatMap WrittenGroup.params))
    = Style.ofSgr (written (ws.flatMap WrittenGroup.params))
  /-- The numbers of a colour neither switch an attribute on nor off. -/
  colors : ∀ w : WrittenGroup, w.IsColor → ∀ ps : List Param,
    ((Style.ofSgr (written (ws.flatMap WrittenGroup.params ++ (w.params ++ ps)))).getD
        .plain).attributes
      = ((Style.ofSgr (written (ws.flatMap WrittenGroup.params ++ ps))).getD .plain).attributes
  /-- A colour that is cut off at the end says nothing. -/
  cutOff : ∀ ps, CutOff ps →
    Style.ofSgr (written (ws.flatMap WrittenGroup.params ++ ps))
      = Style.ofSgr (written (ws.flatMap WrittenGroup.params))

/-- **Lists of codes are read group by group.** -/
theorem sgr_read_by_groups (ws : List WrittenGroup) : ReadByGroups ws where
  style := by
    rw [ofSgr_written]
    rfl
  forgets zero ps := by
    have hzero : groups ((zero.1 :: ps).map Param.number)
        = .code 0 :: groups (ps.map Param.number) := by
      rw [List.map_cons, zero.2, groups_of_ofCode_eq_none rfl]
    rw [ofSgr_written_append, hzero, Style.ofSgr, groups_params_written]
    rfl
  repeats := by
    have hstyle : WrittenGroup.style (ws ++ ws) = WrittenGroup.style ws := by
      have h := applyAll_applyAll (ws.flatMap WrittenGroup.groups) .plain
      rw [← applyAll_append, ← List.flatMap_append, applyAll_flatMap_groups,
        applyAll_flatMap_groups] at h
      exact h
    rw [ofSgr_written, ofSgr_written, hstyle]
  colors w hw ps := by
    rw [ofSgr_written_append, ofSgr_written_append, getD_ifStyled, getD_ifStyled, List.map_append,
      groups_append, applyAll_append, applyAll_groups]
    exact attributes_congr (applyAll_has_congr _ (WrittenGroup.has_apply_of_isColor hw _))
  cutOff ps h := by
    rw [ofSgr_written_append, groups_of_cutOff h, ofSgr_written]
    rfl

/-- What is cut off is no group: said again, it is read together with what follows. -/
example : Style.ofSgr "38;5" = none ∧
    Style.ofSgr "38;5;38;5" = some { foreground := some (.fixed 38), blink := true } := by
  decide +kernel

end LineShell.Sgr
