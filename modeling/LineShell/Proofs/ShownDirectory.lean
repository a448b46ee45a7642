import LineShell.Proofs.Offers
import LineShell.Proofs.OneOffReport
import LineShell.Proofs.Walks
import LineShell.Prompt
import LineShell.Text.Words

/-!
# The directory that a prompt shows

A prompt shows the directory the shell stands in, from the home directory on where that is above it.
What is compared are the names that a path goes through, and what is shown is written as it was: so
the two meet only in the names, and it is by names that a shown location is read back.

* `Path.route` — the names that a path goes through.
* `Path.stripBase?_eq_some` — the rest of a path below a directory leads on from there, and it is
  text where the path is text.
* `Prompt.expandTilde` — a location with the tilde at its front written out.
* **`prompt_identifies_directory`** — a shown location leads back to the directory.
-/

namespace LineShell

/-! ## Pieces between slashes -/

namespace Path

/-- The names that a path goes through: an empty name or a dot leads nowhere. -/
def route (p : Bytes) : List Bytes :=
  (names p).filter (· ≠ dot)

lemma slash_notMem_of_mem_splitOn {p s : Bytes} (h : s ∈ p.splitOn slash) : slash ∉ s := by
  rw [List.splitOn_eq_splitOnP] at h
  intro hs
  simpa using Text.of_mem_splitOnP h slash hs

lemma route_append_slash (front back : Bytes) :
    route (front ++ slash :: back) = route front ++ route back := by
  rw [route, names_append_slash, List.filter_append]
  rfl

lemma route_slash_cons (p : Bytes) : route (slash :: p) = route p :=
  route_append_slash [] p

namespace Spelled

/-- The segments that are not silent. -/
def loud (segs : List Bytes) : List Bytes :=
  segs.filter fun s => !isSilent s

/-- The names of a path are its segments, the silent ones left out. -/
lemma route_eq (p : Bytes) : route p = loud (p.splitOn slash) := by
  rw [route, names, List.filter_filter, loud]
  refine List.filter_congr fun s _ => ?_
  rw [isSilent, Bool.not_or]
  by_cases hnil : s = [] <;> by_cases hdot : s = dot <;> simp [hnil, hdot]

lemma loud_cons_of_silent {s : Bytes} (h : isSilent s = true) (segs : List Bytes) :
    loud (s :: segs) = loud segs := by
  simp [loud, h]

lemma loud_cons_of_not_silent {s : Bytes} (h : ¬ isSilent s = true) (segs : List Bytes) :
    loud (s :: segs) = s :: loud segs := by
  simp [loud, h]

lemma loud_dropSegments (n : Nat) (segs : List Bytes) :
    loud (dropSegments n segs) = (loud segs).drop n := by
  fun_induction dropSegments n segs with
  | case1 => rfl
  | case2 => simp [loud]
  | case3 n s segs hs ih => rw [ih, loud_cons_of_silent hs]
  | case4 n s segs hs ih => rw [ih, loud_cons_of_not_silent hs, List.drop_succ_cons]

lemma loud_dropWhile (segs : List Bytes) : loud (segs.dropWhile isSilent) = loud segs := by
  induction segs with
  | nil => rfl
  | cons s segs ih =>
      by_cases hs : isSilent s = true
      · rw [List.dropWhile_cons_of_pos hs, ih, loud_cons_of_silent hs]
      · rw [List.dropWhile_cons_of_neg hs]

lemma loud_trim (segs : List Bytes) : loud (trim segs) = loud segs := by
  have hreverse : ∀ ss : List Bytes, loud ss.reverse = (loud ss).reverse :=
    fun _ => List.filter_reverse
  rw [trim, trimEnd, hreverse, loud_dropWhile, hreverse, List.reverse_reverse, loud_dropWhile]

lemma mem_of_mem_dropSegments {n : Nat} {segs : List Bytes} {s : Bytes}
    (h : s ∈ dropSegments n segs) : s ∈ segs := by
  fun_induction dropSegments n segs with
  | case1 => exact h
  | case2 => exact absurd h List.not_mem_nil
  | case3 n t segs ht ih => exact List.mem_cons_of_mem _ (ih h)
  | case4 n t segs ht ih => exact List.mem_cons_of_mem _ (ih h)

lemma mem_of_mem_trim {segs : List Bytes} {s : Bytes} (h : s ∈ trim segs) : s ∈ segs := by
  rw [trim, trimEnd, List.mem_reverse] at h
  have hmem := (List.dropWhile_sublist isSilent).mem h
  exact (List.dropWhile_sublist isSilent).mem (List.mem_reverse.1 hmem)

lemma route_spell {segs : List Bytes} (h : ∀ s ∈ segs, slash ∉ s) :
    route (spell segs) = loud segs := by
  by_cases hnil : segs = []
  · subst hnil
    rfl
  · rw [route_eq, spell, List.splitOn_intercalate slash h hnil]

end Spelled

/-! ## The rest of a path -/

/-- What a name stands for in a path. -/
def Component.ofName (name : Bytes) : Component :=
  if name = dotDot then .up else .named name

lemma Component.ofName_injective : Function.Injective ofName := by
  intro a b h
  unfold ofName at h
  split at h <;> split at h <;> simp_all

lemma isAbsolute_iff {p : Bytes} : isAbsolute p = true ↔ ∃ rest, p = slash :: rest := by
  cases p <;> simp [isAbsolute]

/-- Spelling apart, a path from the root is the names that it goes through. -/
lemma components_of_isAbsolute {p : Bytes} (h : isAbsolute p = true) :
    (Spelled.ofBytes p).components = .start .root :: (route p).map Component.ofName := by
  obtain ⟨rest, rfl⟩ := isAbsolute_iff.1 h
  rw [route_slash_cons, Spelled.route_eq, Spelled.ofBytes, if_pos rfl]
  show Component.start .root :: (rest.splitOn slash).filterMap Spelled.component? = _
  rw [Spelled.loud, ← List.filterMap_eq_map, List.filterMap_filter]
  refine congrArg _ (List.filterMap_congr fun s _ => ?_)
  rw [Spelled.component?]
  by_cases hs : Spelled.isSilent s = true
  · simp [hs]
  · simp only [hs, Bool.not_false, if_true, Bool.false_eq_true, if_false, Function.comp_apply,
      Component.ofName]
    split <;> rfl

/-- A path from the root lies below another one if it goes through the same names first; what is
left of it is cut out of its own spelling. -/
lemma stripBase?_slash_cons {rest base : Bytes} (hbase : isAbsolute base = true) :
    stripBase? (slash :: rest) base
      = if route base <+: route rest then
          some (Spelled.spell <| Spelled.trim <|
            Spelled.dropSegments (route base).length (rest.splitOn slash))
        else none := by
  have habsolute : isAbsolute (slash :: rest) = true := isAbsolute_iff.2 ⟨rest, rfl⟩
  rw [stripBase?]
  simp only [components_of_isAbsolute hbase, components_of_isAbsolute habsolute,
    List.isPrefixOf_iff_prefix, List.cons_prefix_cons, true_and,
    List.prefix_map_iff_of_injective Component.ofName_injective, route_slash_cons,
    List.length_cons, List.length_map]
  rfl

variable {p base rest : Bytes}

lemma isSome_stripBase?_iff (hp : isAbsolute p = true) (hbase : isAbsolute base = true) :
    (stripBase? p base).isSome = true ↔ route base <+: route p := by
  obtain ⟨rest, rfl⟩ := isAbsolute_iff.1 hp
  rw [stripBase?_slash_cons hbase, route_slash_cons]
  split <;> simp [*]

/-- The rest of a path leads on from the directory above it. -/
lemma stripBase?_eq_some (hp : isAbsolute p = true) (hbase : isAbsolute base = true)
    (h : stripBase? p base = some rest) : route base ++ route rest = route p := by
  obtain ⟨q, rfl⟩ := isAbsolute_iff.1 hp
  rw [stripBase?_slash_cons hbase] at h
  split at h
  · next hprefix =>
    obtain rfl := Option.some.inj h
    have hslash : ∀ s ∈ Spelled.trim (Spelled.dropSegments (route base).length
        (q.splitOn slash)), slash ∉ s := by
      intro s hs
      exact slash_notMem_of_mem_splitOn
        (Spelled.mem_of_mem_dropSegments (Spelled.mem_of_mem_trim hs))
    rw [Spelled.route_spell hslash, Spelled.loud_trim, Spelled.loud_dropSegments,
      ← Spelled.route_eq, route_slash_cons]
    exact List.prefix_iff_eq_append.1 hprefix
  · exact absurd h (by simp)

end Path

/-! ## Text between slashes -/

namespace Bytes

lemma le_toNat_of_mem_continuationBytes {k v : Nat} {b : UInt8}
    (h : b ∈ continuationBytes k v) : 128 ≤ b.toNat := by
  induction k generalizing v with
  | zero => exact absurd h List.not_mem_nil
  | succ k ih =>
      rw [continuationBytes, List.mem_append, List.mem_singleton] at h
      rcases h with h | rfl
      · exact ih h
      · rw [UInt8.toNat_ofNat_of_lt' (by show v % 64 + 128 < 256; omega)]
        omega

/-- Only a slash has the byte of a slash in its UTF-8 form. -/
lemma slash_notMem_utf8EncodeChar {c : Char} (h : c ≠ '/') :
    Path.slash ∉ String.utf8EncodeChar c := by
  rw [utf8EncodeChar_eq, List.mem_cons, not_or]
  have hv := toNat_val_lt c
  refine ⟨fun hlead => ?_, fun hmore => ?_⟩
  · have hnat := congrArg UInt8.toNat hlead
    rw [UInt8.toNat_ofNat_of_lt' (leadByte_lt hv)] at hnat
    have hslash : leadByte c.val.toNat = 47 := hnat.symm
    have hval : c.val.toNat = 47 := by
      unfold leadByte at hslash
      split_ifs at hslash <;> omega
    exact h (Char.ext (UInt32.toNat_inj.1 hval))
  · exact absurd (le_toNat_of_mem_continuationBytes hmore) (by decide)

/-- A text is cut at its slashes as its bytes are. -/
lemma splitOn_ofString (s : String) :
    (ofString s).splitOn Path.slash
      = (s.toList.splitOn '/').map fun cs => ofString (String.ofList cs) := by
  have hencode : ∀ css : List (List Char), (['/'].intercalate css).flatMap String.utf8EncodeChar
      = [Path.slash].intercalate (css.map fun cs => ofString (String.ofList cs)) := by
    intro css
    induction css with
    | nil => rfl
    | cons cs css ih =>
        cases css with
        | nil => simp [ofString_eq]
        | cons ds css =>
            rw [List.intercalate_cons_cons, List.flatMap_append, List.flatMap_append, ih]
            simp only [List.map_cons, List.intercalate_cons_cons, ofString_eq,
              String.toList_ofList]
            rfl
  have hjoined : ofString s = [Path.slash].intercalate
      ((s.toList.splitOn '/').map fun cs => ofString (String.ofList cs)) := by
    rw [← hencode, List.intercalate_splitOn, ofString_eq]
  rw [hjoined, List.splitOn_intercalate Path.slash]
  · intro b hb hslash
    obtain ⟨cs, hcs, rfl⟩ := List.mem_map.1 hb
    rw [ofString_eq, String.toList_ofList] at hslash
    obtain ⟨c, hc, hslash⟩ := List.mem_flatMap.1 hslash
    rw [List.splitOn_eq_splitOnP] at hcs
    have hne : c ≠ '/' := by simpa using Text.of_mem_splitOnP hcs c hc
    exact slash_notMem_utf8EncodeChar hne hslash
  · simp

lemma isText_ofString (s : String) : (ofString s).IsText :=
  ⟨s, text?_ofString s⟩

lemma IsText.append {a b : Bytes} (ha : a.IsText) (hb : b.IsText) : (a ++ b).IsText := by
  obtain ⟨s, hs⟩ := ha
  obtain ⟨t, ht⟩ := hb
  rw [text?_eq_some_iff] at hs ht
  rw [hs, ht, ← ofString_append]
  exact isText_ofString _

lemma isText_spell {segs : List Bytes} (h : ∀ s ∈ segs, s.IsText) :
    (Path.Spelled.spell segs).IsText := by
  induction segs with
  | nil => exact isText_ofString ""
  | cons s segs ih =>
      obtain ⟨hs, hsegs⟩ := List.forall_mem_cons.1 h
      cases segs with
      | nil => simpa [Path.Spelled.spell] using hs
      | cons t segs =>
          rw [Path.Spelled.spell, List.intercalate_cons_cons]
          exact (hs.append (isText_ofString "/")).append (ih hsegs)

end Bytes

/-- The rest of a path that is text is text. -/
lemma Path.isText_of_stripBase? {s : String} {base rest : Bytes}
    (hs : isAbsolute (Bytes.ofString s) = true) (hbase : isAbsolute base = true)
    (h : stripBase? (Bytes.ofString s) base = some rest) : rest.IsText := by
  obtain ⟨q, hq⟩ := isAbsolute_iff.1 hs
  have hsplit : (Bytes.ofString s).splitOn slash = [] :: q.splitOn slash := by
    rw [hq]
    exact List.splitOn_append_cons_self [] q
  rw [hq, stripBase?_slash_cons hbase] at h
  split at h
  · obtain rfl := Option.some.inj h
    refine Bytes.isText_spell fun b hb => ?_
    have hmem : b ∈ (Bytes.ofString s).splitOn slash := by
      rw [hsplit]
      exact List.mem_cons_of_mem _
        (Spelled.mem_of_mem_dropSegments (Spelled.mem_of_mem_trim hb))
    rw [Bytes.splitOn_ofString] at hmem
    obtain ⟨cs, -, rfl⟩ := List.mem_map.1 hmem
    exact Bytes.isText_ofString _
  · exact absurd h (by simp)

/-! ## What is shown -/

/-- A path from the root. -/
def IsRooted (path : String) : Prop :=
  path.toList.head? = some '/'

/-- The names that a path goes through. -/
def routeOf (path : String) : List Bytes :=
  Path.route (Bytes.ofString path)

/-- The prompt at a directory, for a home directory if there is one. -/
def promptAt (home : Option String) (directory : String) : Prompt :=
  .ofDirectory (Bytes.ofString directory) (home.map Bytes.ofString)

namespace Prompt

/-- The location begins with the tilde that stands for the home directory. -/
def Abbreviated (p : Prompt) : Prop :=
  p.location.toList.head? = some '~'

/-- A location with a tilde at its front written out. -/
def expandTilde (home : Option String) (location : String) : String :=
  match location.toList with
  | '~' :: rest => home.getD "" ++ String.ofList rest
  | _ => location

end Prompt

variable {home : Option String} {h directory : String}

lemma IsRooted.isAbsolute (hroot : IsRooted directory) :
    Path.isAbsolute (Bytes.ofString directory) = true := by
  obtain ⟨cs, hcs⟩ := List.head?_eq_some_iff.1 hroot
  rw [Bytes.ofString_eq, hcs]
  rfl

lemma routeOf_append_slash (front back : String) :
    routeOf (front ++ ("/" ++ back)) = routeOf front ++ routeOf back := by
  rw [routeOf, ofString_append, ofString_append]
  exact Path.route_append_slash _ _

/-- A directory below home is shown as a tilde and what leads on from home, any other in full. -/
lemma location_promptAt (hroot : IsRooted directory) (hhome : ∀ h ∈ home, IsRooted h) :
    (∃ h ∈ home, ∃ rest, (promptAt home directory).location = "~" ++ rest ∧
      routeOf h <+: routeOf directory ∧ routeOf (h ++ rest) = routeOf directory) ∨
    ((∀ h ∈ home, ¬ routeOf h <+: routeOf directory) ∧
      (promptAt home directory).location = directory) := by
  have hfull : (Bytes.ofString directory).lossy = directory :=
    Bytes.lossy_of_text? (Bytes.text?_ofString directory)
  cases home with
  | none => exact .inr ⟨by simp, hfull⟩
  | some h =>
      have hbase := (hhome h rfl).isAbsolute
      have hsome := Path.isSome_stripBase?_iff hroot.isAbsolute hbase
      cases hstrip : Path.stripBase? (Bytes.ofString directory) (Bytes.ofString h) with
      | none =>
          refine .inr ⟨?_, ?_⟩
          · intro h' hh' hprefix
            obtain rfl := Option.mem_some_iff.1 hh'
            exact absurd (hsome.2 hprefix) (by simp [hstrip])
          · simp [promptAt, Prompt.ofDirectory, Prompt.shown, hstrip, hfull]
      | some rest =>
          have hroute := Path.stripBase?_eq_some hroot.isAbsolute hbase hstrip
          have hprefix : routeOf h <+: routeOf directory := ⟨_, hroute⟩
          obtain ⟨t, ht⟩ := Path.isText_of_stripBase? hroot.isAbsolute hbase hstrip
          have hrest := Bytes.text?_eq_some_iff.1 ht
          refine .inl ⟨h, rfl, ?_⟩
          cases rest with
          | nil =>
              refine ⟨"", ?_, hprefix, ?_⟩
              · simp [promptAt, Prompt.ofDirectory, Prompt.shown, hstrip]
              · rw [String.append_empty]
                exact (List.append_nil _).symm.trans hroute
          | cons b bs =>
              refine ⟨"/" ++ t, ?_, hprefix, ?_⟩
              · simp [promptAt, Prompt.ofDirectory, Prompt.shown, hstrip,
                  Bytes.lossy_of_text? ht, ← String.append_assoc]
              · rw [routeOf_append_slash, routeOf, routeOf, ← hrest]
                exact hroute

lemma expandTilde_tilde (rest : String) :
    Prompt.expandTilde (some h) ("~" ++ rest) = h ++ rest := by
  simp [Prompt.expandTilde]

lemma expandTilde_of_isRooted (hroot : IsRooted directory) :
    Prompt.expandTilde home directory = directory := by
  obtain ⟨cs, hcs⟩ := List.head?_eq_some_iff.1 hroot
  simp [Prompt.expandTilde, hcs]

lemma IsRooted.append (hroot : IsRooted h) (rest : String) : IsRooted (h ++ rest) := by
  obtain ⟨cs, hcs⟩ := List.head?_eq_some_iff.1 hroot
  simp [IsRooted, hcs]

lemma abbreviated_promptAt_iff (hroot : IsRooted directory) (hhome : ∀ h ∈ home, IsRooted h) :
    (promptAt home directory).Abbreviated ↔ ∃ h ∈ home, routeOf h <+: routeOf directory := by
  rcases location_promptAt hroot hhome with ⟨h, hh, rest, hshown, hprefix, -⟩ | ⟨hnot, hshown⟩
  · refine iff_of_true ?_ ⟨h, hh, hprefix⟩
    simp [Prompt.Abbreviated, hshown]
  · refine iff_of_false ?_ fun ⟨h, hh, hprefix⟩ => hnot h hh hprefix
    rw [Prompt.Abbreviated, hshown, hroot]
    decide

/-- With home for its tilde, a location is a path to the directory. -/
lemma expandTilde_location (hroot : IsRooted directory) (hhome : ∀ h ∈ home, IsRooted h) :
    IsRooted (Prompt.expandTilde home (promptAt home directory).location) ∧
      routeOf (Prompt.expandTilde home (promptAt home directory).location) = routeOf directory := by
  rcases location_promptAt hroot hhome with ⟨h, hh, rest, hshown, -, hroute⟩ | ⟨-, hshown⟩
  · obtain rfl := hh
    rw [hshown, expandTilde_tilde]
    exact ⟨(hhome h rfl).append rest, hroute⟩
  · rw [hshown, expandTilde_of_isRooted hroot]
    exact ⟨hroot, rfl⟩

/-- A prompt tells the directory it stands in, for a home directory if there is one. -/
structure IdentifiesDirectory (home : Option String) : Prop where
  /-- A location is shown from home on just where the names of home are the first ones. -/
  abbreviated_iff : ∀ directory, IsRooted directory →
    ((promptAt home directory).Abbreviated ↔ ∃ h ∈ home, routeOf h <+: routeOf directory)
  /-- Any other location is shown as it is. -/
  in_full : ∀ directory, IsRooted directory → ¬ (promptAt home directory).Abbreviated →
    (promptAt home directory).location = directory
  /-- With home for its tilde, a location is a path to the directory. -/
  expands : ∀ directory, IsRooted directory →
    IsRooted (Prompt.expandTilde home (promptAt home directory).location) ∧
      routeOf (Prompt.expandTilde home (promptAt home directory).location) = routeOf directory
  /-- Directories that are reached by different names have different prompts. -/
  apart : ∀ directory other, IsRooted directory → IsRooted other →
    routeOf directory ≠ routeOf other →
    (promptAt home directory).left ≠ (promptAt home other).left

/-- **A prompt identifies the directory**, as long as home is a path from the root. -/
theorem prompt_identifies_directory (hhome : ∀ h ∈ home, IsRooted h) :
    IdentifiesDirectory home where
  abbreviated_iff _ hroot := abbreviated_promptAt_iff hroot hhome
  in_full directory hroot hnot := by
    rcases location_promptAt hroot hhome with ⟨h, hh, -, -, hprefix, -⟩ | ⟨-, hshown⟩
    · exact absurd ((abbreviated_promptAt_iff hroot hhome).2 ⟨h, hh, hprefix⟩) hnot
    · exact hshown
  expands _ hroot := expandTilde_location hroot hhome
  apart directory other hroot hother hne hleft := by
    have hlocation : (promptAt home directory).location = (promptAt home other).location :=
      String.append_left_inj "> " |>.1 hleft
    refine hne ?_
    rw [← (expandTilde_location hroot hhome).2, hlocation, (expandTilde_location hother hhome).2]

theorem prompt_identifies_directory_home :
    (∀ h ∈ some "/home//user/.", IsRooted h) ∧ IdentifiesDirectory (some "/home//user/.") := by
  have hhome : ∀ h ∈ some "/home//user/.", IsRooted h := by
    intro h hh
    obtain rfl := Option.mem_some_iff.1 hh
    rfl
  exact ⟨hhome, prompt_identifies_directory hhome⟩

-- a name that only begins like the last one of home is another name
example : (promptAt (some "/home/user") "/home/user2").left = "/home/user2> " := by decide +kernel

end LineShell
