import LineShell.Style.LsColors
import Mathlib.Data.List.Induction
import Mathlib.Data.List.TakeWhile

/-!
# The last item decides

A table of styles may name the same thing twice.  For a kind of entry the later item replaces the
earlier one, also where it only clears the style.  For the end of a name an item that clears is not
kept, so that it leaves an earlier one, or the style of plain files, in force.

* `LsColors.items` — the items that say anything, those with `=` in them.
* `LsColors.lastItem?` — the last of them that applies to something.
* `LsColors.byLast` — the rule: the last item that applies gives the style.  Which items for the
  end of a name count is left open.
* `ofKind_foldl_addItem`, `suffixes_foldl_addItem` — what a row of items makes of a table.
* **`style_by_last_item_iff`** — the style of an entry is that of the last item among those that
  do not clear, and where this is that of the last item.
-/

namespace LineShell

/-- The letters that stand for a kind of entry in a table of styles. -/
def EntryKind.code : EntryKind → String
  | directory => "di"
  | symlink => "ln"
  | executable => "ex"
  | file => "fi"

namespace LsColors

/-! ## Items -/

/-- The well-formed items of a table. -/
def items (spec : String) : List (List Char) :=
  (spec.toList.splitOn ':').filter ('=' ∈ ·)

/-- What an item is for: the text before the first `=`. -/
def key (item : List Char) : List Char :=
  item.takeWhile (· ≠ '=')

/-- The style that an item gives, if its codes amount to any. -/
def itemStyle (item : List Char) : Option Style :=
  Style.ofSgr (String.ofList (item.dropWhile (· ≠ '=')).tail)

/-- Whether an item is for the entries of a kind. -/
def isFor (k : EntryKind) (item : List Char) : Bool :=
  String.ofList (key item) = k.code

/-- The end of names that an item is for, if it is for one: the text behind a star. -/
def suffix? (item : List Char) : Option (List Char) :=
  match key item with
  | '*' :: suffix => some suffix
  | _ => none

/-- Whether an item is for an end that a name has. -/
def fits (name : String) (item : List Char) : Bool :=
  (suffix? item).any fun suffix => suffix.isSuffixOf name.toList

/-- The last item of a table that applies. -/
def lastItem? (applies : List Char → Bool) (spec : String) : Option (List Char) :=
  ((items spec).filter applies).getLast?

/-! ## The rule -/

/-- The style of a kind of entry in a table. -/
def ofKind (colors : LsColors) : EntryKind → Option Style
  | .directory => colors.directory
  | .symlink => colors.symlink
  | .executable => colors.executable
  | .file => colors.file

/-- The style of a kind by the last item for it, and the standard one where there is none. -/
def kindByLast (spec : String) (k : EntryKind) : Option Style :=
  match lastItem? (isFor k) spec with
  | some item => itemStyle item
  | none => standard.ofKind k

/-- The style of an entry by the last item that applies to it.  For a plain file that is the last
of those that count and fit its name, and where there is none the last one for plain files. -/
def byLast (counts : List Char → Bool) (spec : String) (entry : Entry) : Option Style :=
  match entry.kind with
  | .file =>
    match lastItem? (fun item => fits entry.name item && counts item) spec with
    | some item => itemStyle item
    | none => kindByLast spec .file
  | k => kindByLast spec k

/-- Whether the codes of an item amount to a style. -/
def styles (item : List Char) : Bool :=
  (itemStyle item).isSome

/-! ## One item -/

lemma splitItem_of_mem {item : List Char} (h : '=' ∈ item) :
    splitItem item = some (key item, (item.dropWhile (· ≠ '=')).tail) := by
  unfold splitItem
  split
  · next hnil =>
    have hne := List.dropWhile_eq_nil_iff.1 hnil '=' h
    exact absurd hne (by simp)
  · next codes hcons => rw [hcons]; rfl

lemma splitItem_of_not_mem {item : List Char} (h : '=' ∉ item) : splitItem item = none := by
  have hnil : item.dropWhile (· ≠ '=') = [] := by
    refine List.dropWhile_eq_nil_iff.2 fun c hc => ?_
    have hne : c ≠ '=' := fun heq => h (heq ▸ hc)
    simpa using hne
  unfold splitItem
  rw [hnil]

/-- An item without `=` says nothing. -/
lemma addItem_of_not_mem {item : List Char} (h : '=' ∉ item) (colors : LsColors) :
    addItem colors item = colors := by
  unfold addItem
  rw [splitItem_of_not_mem h]

/-- The end of names that an item gives a style to, and the style. -/
def suffixStyle? (item : List Char) : Option (List Char × Style) :=
  (suffix? item).bind fun suffix => (itemStyle item).map (suffix, ·)

lemma suffix?_eq_some_iff {item suffix : List Char} :
    suffix? item = some suffix ↔ key item = '*' :: suffix := by
  unfold suffix?
  split
  · next hkey => simp [hkey]
  · next hkey => exact iff_of_false (by simp) (hkey suffix)

/-- An item for an end of names is kept if it has a style. -/
lemma addItem_of_suffix? {item suffix : List Char} (h : '=' ∈ item)
    (hsuffix : suffix? item = some suffix) (colors : LsColors) :
    addItem colors item
      = { colors with suffixes := colors.suffixes ++ (suffixStyle? item).toList } := by
  have hkey := suffix?_eq_some_iff.1 hsuffix
  rw [suffixStyle?, hsuffix, Option.bind_some]
  unfold addItem itemStyle
  simp only [splitItem_of_mem h, hkey]
  cases Style.ofSgr (String.ofList (item.dropWhile (· ≠ '=')).tail) with
  | none => simp
  | some style => rfl

/-- Any other item sets the style of a kind. -/
lemma addItem_of_suffix?_eq_none {item : List Char} (h : '=' ∈ item)
    (hsuffix : suffix? item = none) (colors : LsColors) :
    addItem colors item = colors.setKind (String.ofList (key item)) (itemStyle item) := by
  unfold addItem itemStyle
  simp only [splitItem_of_mem h]
  split
  · next suffix hkey => exact absurd (hsuffix.symm.trans (suffix?_eq_some_iff.2 hkey)) (by simp)
  · rfl

lemma ofKind_setKind (colors : LsColors) (code : String) (style : Option Style) (k : EntryKind) :
    (colors.setKind code style).ofKind k = if code = k.code then style else colors.ofKind k := by
  unfold setKind
  split <;> cases k <;> simp_all [ofKind, EntryKind.code]

lemma suffixes_setKind (colors : LsColors) (code : String) (style : Option Style) :
    (colors.setKind code style).suffixes = colors.suffixes := by
  unfold setKind
  split <;> rfl

/-- An item for an end of names is for no kind. -/
lemma isFor_of_suffix? {item suffix : List Char} (h : suffix? item = some suffix)
    (k : EntryKind) : isFor k item = false := by
  have hcode : k.code.toList.head? ≠ some '*' := by cases k <;> decide
  rw [isFor, suffix?_eq_some_iff.1 h, decide_eq_false_iff_not]
  intro heq
  rw [← heq, String.toList_ofList] at hcode
  exact hcode rfl

/-- An item changes the style of the kind that it is for. -/
lemma ofKind_addItem {item : List Char} (h : '=' ∈ item) (colors : LsColors) (k : EntryKind) :
    (addItem colors item).ofKind k = if isFor k item then itemStyle item else colors.ofKind k := by
  cases hsuffix : suffix? item with
  | some suffix =>
      rw [addItem_of_suffix? h hsuffix, isFor_of_suffix? hsuffix]
      cases k <;> rfl
  | none =>
      rw [addItem_of_suffix?_eq_none h hsuffix, ofKind_setKind, isFor]
      simp

lemma suffixes_addItem {item : List Char} (h : '=' ∈ item) (colors : LsColors) :
    (addItem colors item).suffixes = colors.suffixes ++ (suffixStyle? item).toList := by
  cases hsuffix : suffix? item with
  | some suffix => rw [addItem_of_suffix? h hsuffix]
  | none =>
      rw [addItem_of_suffix?_eq_none h hsuffix, suffixes_setKind, suffixStyle?, hsuffix]
      simp

/-! ## All items -/

section table

variable {is : List (List Char)}

/-- The last item for a kind decides what a row of items makes of it. -/
lemma ofKind_foldl_addItem (h : ∀ item ∈ is, '=' ∈ item) (colors : LsColors) (k : EntryKind) :
    (is.foldl addItem colors).ofKind k = match (is.filter (isFor k)).getLast? with
      | some item => itemStyle item
      | none => colors.ofKind k := by
  -- from the end, as the last item is asked first
  induction is using List.reverseRecOn with
  | nil => rfl
  | append_singleton is item ih =>
      have hitem : '=' ∈ item := h item (by simp)
      rw [List.foldl_append, List.foldl_cons, List.foldl_nil, ofKind_addItem hitem,
        List.filter_append, ih fun i hi => h i (List.mem_append_left _ hi)]
      by_cases hfor : isFor k item = true
      · simp [hfor]
      · simp [hfor]

/-- The ends of names that have a style are kept in the order of their items. -/
lemma suffixes_foldl_addItem (h : ∀ item ∈ is, '=' ∈ item) (colors : LsColors) :
    (is.foldl addItem colors).suffixes = colors.suffixes ++ is.filterMap suffixStyle? := by
  induction is generalizing colors with
  | nil => simp
  | cons item is ih =>
      rw [List.foldl_cons, ih fun i hi => h i (List.mem_cons_of_mem _ hi),
        suffixes_addItem (h item List.mem_cons_self), List.append_assoc]
      cases hs : suffixStyle? item <;> simp [hs]

end table

lemma mem_of_mem_items {spec : String} : ∀ item ∈ items spec, '=' ∈ item := fun _ h => by
  simpa using (List.mem_filter.1 h).2

/-- A table is made by its well-formed items. -/
lemma parse_eq (spec : String) : parse spec = (items spec).foldl addItem standard := by
  rw [parse, items]
  generalize standard = colors
  induction spec.toList.splitOn ':' generalizing colors with
  | nil => rfl
  | cons item is ih =>
      by_cases h : '=' ∈ item
      · rw [List.filter_cons_of_pos (by simpa using h), List.foldl_cons, List.foldl_cons, ih]
      · rw [List.filter_cons_of_neg (by simpa using h), List.foldl_cons, addItem_of_not_mem h, ih]

lemma ofKind_parse (spec : String) (k : EntryKind) : (parse spec).ofKind k = kindByLast spec k := by
  rw [parse_eq, ofKind_foldl_addItem mem_of_mem_items, kindByLast, lastItem?]

/-- An end of names that is kept and fits, told from its item. -/
lemma any_suffixStyle? (name : String) (item : List Char) :
    (suffixStyle? item).any (fun s => s.1.isSuffixOf name.toList)
      = (fits name item && styles item) := by
  unfold suffixStyle? fits styles
  cases suffix? item with
  | none => rfl
  | some suffix => cases itemStyle item <;> simp

lemma map_snd_suffixStyle? {name : String} {item : List Char} (h : fits name item = true) :
    (suffixStyle? item).map Prod.snd = itemStyle item := by
  unfold fits at h
  unfold suffixStyle?
  cases hsuffix : suffix? item with
  | none => exact absurd h (by simp [hsuffix])
  | some suffix => cases itemStyle item <;> rfl

/-- The last end of names that is kept and fits has the style of the last item for one. -/
lemma find?_suffixes_parse (spec name : String) :
    ((parse spec).suffixes.reverse.find? fun s => s.1.isSuffixOf name.toList).map Prod.snd
      = (lastItem? (fun item => fits name item && styles item) spec).bind itemStyle := by
  rw [parse_eq, suffixes_foldl_addItem mem_of_mem_items]
  show (((items spec).filterMap suffixStyle?).reverse.find? _).map Prod.snd = _
  rw [← List.filterMap_reverse, List.find?_filterMap, lastItem?, List.getLast?_filter]
  simp only [any_suffixStyle?]
  cases hfind : (items spec).reverse.find? fun item => fits name item && styles item with
  | none => rfl
  | some item =>
      have happlies := List.find?_some hfind
      rw [Bool.and_eq_true] at happlies
      exact map_snd_suffixStyle? happlies.1

/-! ## The style of an entry -/

section last

variable {applies counts : List Char → Bool} {spec : String} {item : List Char}

lemma of_lastItem? (h : lastItem? applies spec = some item) :
    item ∈ items spec ∧ applies item = true :=
  List.mem_filter.1 (List.mem_of_getLast? h)

lemma lastItem?_eq_none_iff :
    lastItem? applies spec = none ↔ ∀ item ∈ items spec, ¬ applies item = true := by
  rw [lastItem?, List.getLast?_eq_none_iff, List.filter_eq_nil_iff]

/-- The last item that applies is also the last one that applies and counts, if it counts. -/
lemma lastItem?_and (h : lastItem? applies spec = some item) (hcounts : counts item = true) :
    lastItem? (fun item => applies item && counts item) spec = some item := by
  have hfilter : (items spec).filter (fun item => applies item && counts item)
      = ((items spec).filter applies).filter counts := by
    rw [List.filter_filter]
    exact List.filter_congr fun i _ => Bool.and_comm _ _
  obtain ⟨is, his⟩ := List.getLast?_eq_some_iff.1 h
  rw [lastItem?, hfilter, his, List.filter_append, List.filter_cons_of_pos hcounts,
    List.filter_nil, List.getLast?_concat]

end last

/-- An item that fits a plain file and gives no style is passed over. -/
lemma styleFor_parse (spec : String) (entry : Entry) :
    (parse spec).styleFor entry = byLast styles spec entry := by
  obtain ⟨name, kind⟩ := entry
  have hkind := ofKind_parse spec kind
  cases kind with
  | directory | symlink | executable => exact hkind
  | file =>
      have hfind := find?_suffixes_parse spec name
      simp only [styleFor, byLast]
      cases hlast : lastItem? (fun item => fits name item && styles item) spec with
      | none =>
          rw [hlast, Option.bind_none, Option.map_eq_none_iff] at hfind
          rw [hfind]
          exact hkind
      | some item =>
          obtain ⟨style, hstyle⟩ :=
            Option.isSome_iff_exists.1 (Bool.and_eq_true_iff.1 (of_lastItem? hlast).2).2
          rw [hlast, Option.bind_some, hstyle, Option.map_eq_some_iff] at hfind
          obtain ⟨s, hs, rfl⟩ := hfind
          rw [hs]
          exact hstyle.symm

/-- A plain file is shown in a style although the last item for an end of its name gives none: by an
earlier item for an end of its name, or by the last one for plain files. -/
structure Revived (spec : String) (entry : Entry) : Prop where
  file : entry.kind = .file
  cleared : ∃ item, lastItem? (fits entry.name) spec = some item ∧ itemStyle item = none
  styled : (∃ item ∈ items spec, fits entry.name item = true ∧ styles item = true) ∨
    (kindByLast spec .file).isSome = true

/-- A plain file is shown in a style by an item that fits and has one, or as plain files are. -/
lemma isSome_byLast_styles {spec name : String} :
    (byLast styles spec ⟨name, .file⟩).isSome = true ↔
      (∃ item ∈ items spec, fits name item = true ∧ styles item = true) ∨
        (kindByLast spec .file).isSome = true := by
  simp only [byLast]
  cases hlast : lastItem? (fun item => fits name item && styles item) spec with
  | none =>
      have hnone := lastItem?_eq_none_iff.1 hlast
      refine ⟨.inr, fun h => h.resolve_left ?_⟩
      rintro ⟨item, hitem, hfits, hstyles⟩
      exact hnone item hitem (Bool.and_eq_true_iff.2 ⟨hfits, hstyles⟩)
  | some item =>
      obtain ⟨hitem, happlies⟩ := of_lastItem? hlast
      have hboth := Bool.and_eq_true_iff.1 happlies
      exact iff_of_true hboth.2 (.inl ⟨item, hitem, hboth⟩)

/-- To pass over the items that clear makes a difference where one of them comes last and a style is
left. -/
lemma byLast_styles_eq_iff (spec : String) (entry : Entry) :
    byLast styles spec entry = byLast (fun _ => true) spec entry ↔ ¬ Revived spec entry := by
  obtain ⟨name, kind⟩ := entry
  cases kind with
  | directory | symlink | executable =>
      exact iff_of_true rfl fun h => absurd h.file (by simp)
  | file =>
      have htrue : (fun item => fits name item && true) = fits name :=
        funext fun item => Bool.and_true _
      cases hlast : lastItem? (fits name) spec with
      | none =>
          have hnone : lastItem? (fun item => fits name item && styles item) spec = none := by
            refine lastItem?_eq_none_iff.2 fun item hitem h => ?_
            exact lastItem?_eq_none_iff.1 hlast item hitem (Bool.and_eq_true_iff.1 h).1
          refine iff_of_true ?_ fun h => ?_
          · simp only [byLast, htrue, hlast, hnone]
          · obtain ⟨item, hitem, -⟩ := h.cleared
            exact absurd (hlast.symm.trans hitem) (by simp)
      | some item =>
          cases hstyle : itemStyle item with
          | some style =>
              have hsame := @lastItem?_and _ styles _ _ hlast (by rw [styles, hstyle]; rfl)
              refine iff_of_true ?_ fun h => ?_
              · simp only [byLast, htrue, hlast, hsame]
              · obtain ⟨other, hother, hcleared⟩ := h.cleared
                obtain rfl := Option.some.inj (hlast.symm.trans hother)
                exact absurd (hstyle.symm.trans hcleared) (by simp)
          | none =>
              have hclear : byLast (fun _ => true) spec ⟨name, .file⟩ = none := by
                simp only [byLast, htrue, hlast, hstyle]
              rw [hclear, ← Option.not_isSome_iff_eq_none, isSome_byLast_styles]
              exact not_congr ⟨fun h => ⟨rfl, ⟨item, hlast, hstyle⟩, h⟩, fun h => h.styled⟩

/-- **The last item that applies to an entry gives its style**, if items that give ends of names no
style do not count.  If they do count, this is so but where one of them comes last and a style is
left.  Text without `=` between the items makes no difference. -/
theorem style_by_last_item_iff (spec : String) (entry : Entry) :
    (parse spec).styleFor entry = byLast styles spec entry ∧
    ((parse spec).styleFor entry = byLast (fun _ => true) spec entry ↔ ¬ Revived spec entry) ∧
    ∀ other, items other = items spec → parse other = parse spec := by
  refine ⟨styleFor_parse spec entry, ?_, fun other h => ?_⟩
  · rw [styleFor_parse]
    exact byLast_styles_eq_iff spec entry
  · rw [parse_eq, parse_eq, h]

/-- The second item clears what the first one gives to the same names, and they keep it. -/
theorem cleared_suffix_still_styled :
    (parse "*.md=35:*.md=0").styleFor ⟨"a.md", .file⟩
        = some { foreground := some (.fixed 5) } ∧
      byLast (fun _ => true) "*.md=35:*.md=0" ⟨"a.md", .file⟩ = none := by
  decide +kernel

end LsColors

end LineShell
