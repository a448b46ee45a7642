import LineShell.Proofs.SgrGroups
import LineShell.Style.Spec
import Mathlib.Data.List.Basic
import Mathlib.Data.List.TakeWhile

/-!
# Styles in any order of words

A style in words is read from the first word to the last, and still the order says little: every
attribute stays, whatever comes after it, and a colour only gives way to another colour.  So a style
is told by the set of its words and by the last colour among them, and by nothing else of the text.

* `Text.Spaced`, `Text.words_eq_iff` — what the words of a text are.
* `Style.specWords`, `Style.lastColor?` — the words of a style in lower case, and the last colour.
* `StyleWord.has_applyAll_iff`, `StyleWord.foreground_applyAll` — what a row of words comes to.
* **`style_by_words`** — the style that a text names, and when two texts name the same one.
-/

namespace LineShell

/-! ## Words between blanks -/

namespace Text

/-- A text that consists of words with blanks around them. -/
inductive Spaced : List Char → List (List Char) → Prop
  | nil : Spaced [] []
  | blank {c : Char} {cs : List Char} {ws : List (List Char)} :
      isBlank c = true → Spaced cs ws → Spaced (c :: cs) ws
  | word {w cs : List Char} {ws : List (List Char)} :
      w ≠ [] → (∀ c ∈ w, isBlank c = false) → (∀ c ∈ cs.head?, isBlank c = true) →
      Spaced cs ws → Spaced (w ++ cs) (w :: ws)

lemma words_blank_cons {c : Char} (hc : isBlank c = true) (cs : List Char) :
    words (c :: cs) = words cs := by
  simp [words, List.splitOnP_cons_eq_if_modifyHead, hc]

lemma words_word_append {w cs : List Char} (hne : w ≠ []) (hw : ∀ c ∈ w, isBlank c = false)
    (hcs : ∀ c ∈ cs.head?, isBlank c = true) : words (w ++ cs) = w :: words cs := by
  cases cs with
  | nil => simp [words, List.splitOnP_eq_singleton hw, hne]
  | cons c cs =>
      have hc : isBlank c = true := hcs c rfl
      rw [words_blank_cons hc, words, List.splitOnP_append_cons_of_forall_mem hw c hc,
        List.filter_cons_of_pos (by simpa using hne), words]

lemma spaced_words (cs : List Char) : Spaced cs (words cs) := by
  induction hn : cs.length using Nat.strongRecOn generalizing cs with
  | ind n ih =>
      cases cs with
      | nil => exact .nil
      | cons c cs =>
          by_cases hc : isBlank c = true
          · rw [words_blank_cons hc]
            exact .blank hc (ih cs.length (by simp [← hn]) cs rfl)
          · -- the word that begins here takes all up to the next blank
            obtain ⟨w, rest, hw, hne, hall, hrest⟩ : ∃ w rest, w ++ rest = c :: cs ∧ w ≠ [] ∧
                (∀ d ∈ w, isBlank d = false) ∧ ∀ d ∈ rest.head?, isBlank d = true := by
              refine ⟨_, _, List.takeWhile_append_dropWhile (p := fun d => !isBlank d), ?_, ?_, ?_⟩
              · simp [hc]
              · intro d hd
                simpa using List.mem_takeWhile_imp hd
              · intro d hd
                have hstop := List.head?_dropWhile_not (fun d => !isBlank d) (c :: cs)
                simpa [Option.mem_def.1 hd] using hstop
            have hshort : rest.length < n := by
              have hlength := congrArg List.length hw
              have hpos := List.length_pos_iff.2 hne
              rw [List.length_append] at hlength
              omega
            rw [← hw, words_word_append hne hall hrest]
            exact .word hne hall hrest (ih _ hshort rest rfl)

/-- **The words of a text** are what stands between its blanks. -/
theorem words_eq_iff {cs : List Char} {ws : List (List Char)} : words cs = ws ↔ Spaced cs ws := by
  refine ⟨fun h => h ▸ spaced_words cs, fun h => ?_⟩
  induction h with
  | nil => rfl
  | blank hc _ ih => rw [words_blank_cons hc, ih]
  | word hne hw hcs _ ih => rw [words_word_append hne hw hcs, ih]

lemma Spaced.map {f : Char → Char} (hf : ∀ c, isBlank (f c) = isBlank c) {cs : List Char}
    {ws : List (List Char)} (h : Spaced cs ws) : Spaced (cs.map f) (ws.map (·.map f)) := by
  induction h with
  | nil => exact .nil
  | blank hc _ ih => exact .blank ((hf _).trans hc) ih
  | word hne hw hcs _ ih =>
      rw [List.map_append]
      refine .word (by simpa using hne) ?_ ?_ ih
      · simpa [hf] using hw
      · simpa [hf] using hcs

/-- Characters may change, as long as blanks stay blank and no others become blank. -/
lemma words_map {f : Char → Char} (hf : ∀ c, isBlank (f c) = isBlank c) (cs : List Char) :
    words (cs.map f) = (words cs).map (·.map f) :=
  words_eq_iff.2 ((spaced_words cs).map hf)

/-! ## Letters of either case -/

lemma toNat_toLower (c : Char) :
    c.toLower = c ∨ 65 ≤ c.toNat ∧ c.toNat ≤ 90 ∧ c.toLower.toNat = c.toNat + 32 := by
  unfold Char.toLower
  split
  · next h =>
    obtain ⟨hge, hle⟩ : 65 ≤ c.val.toNat ∧ c.val.toNat ≤ 90 := h
    refine .inr ⟨hge, hle, ?_⟩
    show (c.val + 32).toNat = c.val.toNat + 32
    rw [UInt32.toNat_add]
    exact Nat.mod_eq_of_lt (by show c.val.toNat + 32 < 4294967296; omega)
  · exact .inl rfl

lemma isBlank_toLower (c : Char) : isBlank c.toLower = isBlank c := by
  have hletter : ∀ d : Char, 65 ≤ d.toNat → d.toNat ≤ 122 → isBlank d = false := by
    intro d hge hle
    simp only [isBlank, blankRanges, List.any_cons, List.any_nil]
    simp
    omega
  rcases toNat_toLower c with h | ⟨hge, hle, h⟩
  · rw [h]
  · rw [hletter c hge (by omega), hletter _ (by omega) (by omega)]

lemma lowerToAscii_toLower (c : Char) : lowerToAscii c.toLower = lowerToAscii c := by
  rcases toNat_toLower c with h | ⟨hge, hle, h⟩
  · rw [h]
  · have hkelvin : ∀ d : Char, d.toNat ≤ 122 → d ≠ '\u212A' := by
      rintro d hd rfl
      exact absurd hd (by decide)
    have hlower : c.toLower.toLower = c.toLower := by
      rcases toNat_toLower c.toLower with h' | ⟨-, hle', -⟩
      · exact h'
      · omega
    rw [lowerToAscii, lowerToAscii, if_neg (hkelvin _ (by omega)), if_neg (hkelvin c (by omega)),
      hlower]

end Text

/-! ## What a row of words comes to -/

namespace StyleWord

/-- The colour that a word names. -/
def color? : StyleWord → Option ColorName
  | attr _ => none
  | color c => some c

lemma has_apply (w : StyleWord) (s : Style) (a : Attribute) :
    (w.apply s).has a = true ↔ w = .attr a ∨ s.has a = true := by
  cases w with
  | attr b => rw [apply, Sgr.has_withAttribute, Bool.or_eq_true, decide_eq_true_eq,
      StyleWord.attr.injEq, @eq_comm _ b]
  | color c => cases a <;> simp [apply, Style.has]

/-- An attribute that is switched on stays on. -/
lemma has_applyAll_iff (ws : List StyleWord) (s : Style) (a : Attribute) :
    (applyAll ws s).has a = true ↔ .attr a ∈ ws ∨ s.has a = true := by
  induction ws generalizing s with
  | nil => simp [applyAll]
  | cons w ws ih =>
      rw [applyAll, List.foldl_cons, ← applyAll, ih, has_apply, List.mem_cons, eq_comm (a := w)]
      tauto

/-- A colour stays until there is another one. -/
lemma foreground_applyAll (ws : List StyleWord) (s : Style) :
    (applyAll ws s).foreground
      = ((ws.filterMap color?).getLast?.map Color.named).or s.foreground := by
  induction ws generalizing s with
  | nil => rfl
  | cons w ws ih =>
      rw [applyAll, List.foldl_cons, ← applyAll, ih]
      cases w with
      | attr b =>
          cases b <;> rfl
      | color c =>
          have hcolors : (color c :: ws).filterMap color? = c :: ws.filterMap color? := rfl
          rw [hcolors, List.getLast?_cons]
          cases (ws.filterMap color?).getLast? <;> rfl

lemma background_applyAll (ws : List StyleWord) (s : Style) :
    (applyAll ws s).background = s.background := by
  induction ws generalizing s with
  | nil => rfl
  | cons w ws ih =>
      rw [applyAll, List.foldl_cons, ← applyAll, ih]
      cases w with
      | attr b => cases b <;> rfl
      | color c => rfl

/-- Words always say something. -/
lemma applyAll_eq_plain_iff {ws : List StyleWord} :
    applyAll ws .plain = .plain ↔ ws = [] := by
  refine ⟨fun h => ?_, fun h => by rw [h]; rfl⟩
  by_contra hne
  obtain ⟨w, hw⟩ := List.exists_mem_of_ne_nil ws hne
  cases w with
  | attr a =>
      have hon := (has_applyAll_iff ws .plain a).2 (.inl hw)
      rw [h] at hon
      cases a <;> exact absurd hon (by decide)
  | color c =>
      have hnone : (applyAll ws .plain).foreground = none := by
        rw [h]
        rfl
      rw [foreground_applyAll] at hnone
      have hcolors := (Option.or_eq_none_iff.1 hnone).1
      rw [Option.map_eq_none_iff, List.getLast?_eq_none_iff, List.filterMap_eq_nil_iff] at hcolors
      exact Option.some_ne_none c (hcolors _ hw)

/-- What a word says that is in lower case. -/
def meaning? (w : List Char) : Option StyleWord :=
  table.lookup (String.ofList w)

end StyleWord

/-! ## Styles in words -/

open StyleWord (meaning? applyAll)

lemma mapM_eq_some_iff {α β : Type} {f : α → Option β} {xs : List α} {ys : List β} :
    xs.mapM f = some ys ↔ xs.map f = ys.map some := by
  induction xs generalizing ys with
  | nil => cases ys <;> simp
  | cons x xs ih =>
      rw [List.mapM_cons, List.map_cons]
      cases ys with
      | nil => cases f x <;> cases xs.mapM f <;> simp
      | cons y ys =>
          rw [List.map_cons, List.cons.injEq, ← ih]
          cases f x <;> cases xs.mapM f <;> simp

namespace Style

/-- The words of a text, in lower case. -/
def specWords (spec : String) : List (List Char) :=
  (Text.words spec.toList).map (·.map Text.lowerToAscii)

/-- The last colour that is named by a word. -/
def lastColor? (ws : List (List Char)) : Option ColorName :=
  ((ws.filterMap meaning?).filterMap StyleWord.color?).getLast?

variable {spec other : String} {s : Style}

lemma ifStyled_eq_some_iff {s t : Style} : s.ifStyled = some t ↔ s ≠ plain ∧ s = t := by
  unfold ifStyled
  split <;> simp [*]

/-- A text names what its words say one after the other, if there are words and all are known. -/
lemma ofSpec_eq_some_iff : ofSpec spec = some s ↔
    ∃ ws, (specWords spec).map meaning? = ws.map some ∧ ws ≠ [] ∧ applyAll ws plain = s := by
  have hwords : (Text.words spec.toList).mapM StyleWord.ofText =
      (specWords spec).mapM meaning? := by
    rw [specWords, List.mapM_map]
    rfl
  rw [ofSpec, hwords, Option.bind_eq_some_iff]
  refine exists_congr fun ws => ?_
  rw [mapM_eq_some_iff, ifStyled_eq_some_iff, ne_eq, StyleWord.applyAll_eq_plain_iff]

lemma mem_of_map_eq {ws : List (List Char)} {xs : List StyleWord}
    (h : ws.map meaning? = xs.map some) (x : StyleWord) :
    x ∈ xs ↔ ∃ w ∈ ws, meaning? w = some x := by
  have hmem : some x ∈ xs.map some ↔ ∃ w ∈ ws, meaning? w = some x := by
    rw [← h, List.mem_map]
  simpa using hmem

/-- It names nothing otherwise. -/
lemma ofSpec_eq_none_iff :
    ofSpec spec = none ↔ specWords spec = [] ∨ ∃ w ∈ specWords spec, meaning? w = none := by
  constructor
  · intro hnone
    by_contra hnot
    obtain ⟨hne, hknown⟩ := not_or.1 hnot
    have hmeanings : (specWords spec).map meaning?
        = ((specWords spec).filterMap meaning?).map some := by
      rw [List.map_filterMap, ← List.filterMap_eq_map]
      refine List.filterMap_congr fun w hw => ?_
      obtain ⟨x, hx⟩ := Option.ne_none_iff_exists'.1 fun h => hknown ⟨w, hw, h⟩
      simp [hx]
    have hsome := ofSpec_eq_some_iff.2 ⟨_, hmeanings, fun hnil => hne ?_, rfl⟩
    · exact Option.some_ne_none _ (hsome.symm.trans hnone)
    · rw [hnil] at hmeanings
      exact List.map_eq_nil_iff.1 hmeanings
  · intro h
    by_contra hsome
    obtain ⟨s, hs⟩ := Option.ne_none_iff_exists'.1 hsome
    obtain ⟨ws, hws, hne, -⟩ := ofSpec_eq_some_iff.1 hs
    rcases h with hnil | ⟨w, hw, hunknown⟩
    · rw [hnil] at hws
      exact hne (List.map_eq_nil_iff.1 hws.symm)
    · have hmem : none ∈ ws.map some := by
        rw [← hws, ← hunknown]
        exact List.mem_map_of_mem hw
      simp at hmem

lemma has_ofSpec_iff (h : ofSpec spec = some s) (a : Attribute) :
    s.has a = true ↔ ∃ w ∈ specWords spec, meaning? w = some (.attr a) := by
  obtain ⟨ws, hws, -, rfl⟩ := ofSpec_eq_some_iff.1 h
  have hplain : plain.has a = false := by cases a <;> rfl
  rw [StyleWord.has_applyAll_iff, hplain, mem_of_map_eq hws]
  simp

lemma foreground_ofSpec (h : ofSpec spec = some s) :
    s.foreground = (lastColor? (specWords spec)).map .named := by
  obtain ⟨ws, hws, -, rfl⟩ := ofSpec_eq_some_iff.1 h
  have hmeanings : (specWords spec).filterMap meaning? = ws := by
    have hsome := congrArg (List.filterMap id) hws
    rwa [List.filterMap_map, List.filterMap_map, Function.id_comp, Function.id_comp,
      List.filterMap_some] at hsome
  rw [StyleWord.foreground_applyAll, lastColor?, hmeanings]
  exact Option.or_none

lemma background_ofSpec (h : ofSpec spec = some s) : s.background = none := by
  obtain ⟨ws, -, -, rfl⟩ := ofSpec_eq_some_iff.1 h
  exact StyleWord.background_applyAll ws plain

/-- A style is its colours and its attributes. -/
lemma ext_has {s t : Style} (hforeground : s.foreground = t.foreground)
    (hbackground : s.background = t.background) (h : ∀ a, s.has a = t.has a) : s = t := by
  obtain ⟨_, _, _, _, _, _, _, _, _, _⟩ := s
  obtain ⟨_, _, _, _, _, _, _, _, _, _⟩ := t
  have hbold := h .bold
  have hdimmed := h .dimmed
  have hitalic := h .italic
  have hunderline := h .underline
  have hblink := h .blink
  have hreverse := h .reverse
  have hhidden := h .hidden
  have hstrikethrough := h .strikethrough
  simp only [has] at *
  simp [*]

/-- The set of the words and the last colour decide. -/
lemma ofSpec_congr (hwords : ∀ w, w ∈ specWords other ↔ w ∈ specWords spec)
    (hcolor : lastColor? (specWords other) = lastColor? (specWords spec)) :
    ofSpec other = ofSpec spec := by
  have hnone : ofSpec other = none ↔ ofSpec spec = none := by
    simp only [ofSpec_eq_none_iff, List.eq_nil_iff_forall_not_mem, hwords]
  cases hspec : ofSpec spec with
  | none => exact hnone.2 hspec
  | some s =>
      obtain ⟨t, ht⟩ : ∃ t, ofSpec other = some t := by
        refine Option.ne_none_iff_exists'.1 fun h => ?_
        exact Option.some_ne_none s (hspec.symm.trans (hnone.1 h))
      rw [ht]
      refine congrArg some (ext_has ?_ ?_ fun a => ?_)
      · rw [foreground_ofSpec ht, foreground_ofSpec hspec, hcolor]
      · rw [background_ofSpec ht, background_ofSpec hspec]
      · rw [Bool.eq_iff_iff, has_ofSpec_iff ht, has_ofSpec_iff hspec]
        simp only [hwords]

lemma specWords_of_toLower
    (h : other.toList.map Char.toLower = spec.toList.map Char.toLower) :
    specWords other = specWords spec := by
  have hlower : ∀ text : String, specWords text
      = (Text.words (text.toList.map Char.toLower)).map (·.map Text.lowerToAscii) := by
    intro text
    rw [Text.words_map Text.isBlank_toLower, List.map_map, specWords]
    refine List.map_congr_left fun w _ => ?_
    simp [Text.lowerToAscii_toLower]
  rw [hlower, hlower, h]

lemma specWords_of_spaced {ws : List (List Char)} (hspec : Text.Spaced spec.toList ws)
    (hother : Text.Spaced other.toList ws) : specWords other = specWords spec := by
  rw [specWords, specWords, Text.words_eq_iff.2 hspec, Text.words_eq_iff.2 hother]

end Style

/-- What a text names as a style. -/
structure StyleByWords (spec : String) : Prop where
  /-- It names nothing just where it has no words or a word is unknown. -/
  none_iff : Style.ofSpec spec = none ↔
    Style.specWords spec = [] ∨ ∃ w ∈ Style.specWords spec, meaning? w = none
  /-- The style has the attributes that words name, wherever they stand. -/
  has_iff : ∀ s, Style.ofSpec spec = some s → ∀ a, s.has a = true ↔
    ∃ w ∈ Style.specWords spec, meaning? w = some (.attr a)
  /-- Its colour is the last one that is named. -/
  foreground : ∀ s, Style.ofSpec spec = some s →
    s.foreground = (Style.lastColor? (Style.specWords spec)).map .named
  background : ∀ s, Style.ofSpec spec = some s → s.background = none
  /-- Words may be put in another order and said again, if the last colour stays. -/
  rearranged : ∀ other, (∀ w, w ∈ Style.specWords other ↔ w ∈ Style.specWords spec) →
    Style.lastColor? (Style.specWords other) = Style.lastColor? (Style.specWords spec) →
    Style.ofSpec other = Style.ofSpec spec
  /-- Letters may be of either case. -/
  recased : ∀ other : String,
    other.toList.map Char.toLower = spec.toList.map Char.toLower →
    Style.ofSpec other = Style.ofSpec spec
  /-- Blanks around words may be any. -/
  respaced : ∀ (other : String) (ws : List (List Char)), Text.Spaced spec.toList ws →
    Text.Spaced other.toList ws → Style.ofSpec other = Style.ofSpec spec

/-- **A style is told by the set of its words and the last colour among them.** -/
theorem style_by_words (spec : String) : StyleByWords spec where
  none_iff := Style.ofSpec_eq_none_iff
  has_iff _ h := Style.has_ofSpec_iff h
  foreground _ h := Style.foreground_ofSpec h
  background _ h := Style.background_ofSpec h
  rearranged _ hwords hcolor := Style.ofSpec_congr hwords hcolor
  recased other h := by
    have hwords := Style.specWords_of_toLower h
    exact Style.ofSpec_congr (by simp [hwords]) (by rw [hwords])
  respaced other ws hspec hother := by
    have hwords := Style.specWords_of_spaced hspec hother
    exact Style.ofSpec_congr (by simp [hwords]) (by rw [hwords])

end LineShell
