import LineShell.Proofs.Joining
import LineShell.Proofs.Steps

/-!
# One line after another

Two lines with a terminator between them are evaluated like the one and then, if that goes on, the
other.  The tree of the whole is known (`forms_join`); what is left is that the evaluation of the
first line does not see what stands behind it.

* `Point.followedBy` — a point with further forms behind all that is left.
* `Point.Run.followedBy`, `Point.Stops.followedBy` — it does the same, until nothing else is left.
* `evaluates_joined_iff` — the evaluation of lines put together, with the commands on the way.
* **`evalSource_joined`** — lines put together run one after the other.
-/

namespace LineShell

variable {M : Type} {launch : Launcher M}

/-! ## Further forms behind a point -/

/-- Puts forms behind those of the last row, which is that of the line. -/
def appendLast (gs : List Form) : List (List Form) → List (List Form)
  | [] => []
  | [fs] => [fs ++ gs]
  | fs :: hs :: rest => fs :: appendLast gs (hs :: rest)

@[simp] lemma length_appendLast (gs : List Form) (rows : List (List Form)) :
    (appendLast gs rows).length = rows.length := by
  fun_induction appendLast gs rows with
  | case1 | case2 => rfl
  | case3 fs hs rest ih => exact congrArg (· + 1) ih

namespace Point

variable {limit : Nat} {p q : Point M}

/-- The point with further forms behind all that is left. -/
def followedBy (gs : List Form) : Point M → Point M
  | ⟨fs, [], s⟩ => ⟨fs ++ gs, [], s⟩
  | ⟨fs, hs :: callers, s⟩ => ⟨fs, appendLast gs (hs :: callers), s⟩

lemma Step.followedBy {c : Option Command} (h : Step launch limit p c q) (gs : List Form) :
    Step launch limit (p.followedBy gs) c (q.followedBy gs) := by
  cases h with
  | @complete f fs callers s t c hcompletes =>
      cases callers with
      | nil => exact .complete hcompletes
      | cons hs callers => exact .complete hcompletes
  | @call f fs callers s body hcalls hlt =>
      cases callers with
      | nil => exact .call hcalls hlt
      | cons hs callers => exact .call hcalls (by rwa [length_appendLast])
  | @back fs callers s =>
      cases callers with
      | nil => exact .back
      | cons hs callers => exact .back

lemma Run.followedBy {cs : List Command} (h : Run launch limit p cs q) (gs : List Form) :
    Run launch limit (p.followedBy gs) cs (q.followedBy gs) := by
  induction h with
  | refl p => exact .refl _
  | step hstep _ ih => exact .step (hstep.followedBy gs) ih

/-- What ends an evaluation before its time ends it whatever is left. -/
lemma Stops.followedBy {e : Except EvalError Flow} (h : Stops launch limit p e)
    (he : e ≠ .ok .goOn) (gs : List Form) : Stops launch limit (p.followedBy gs) e := by
  cases h with
  | done => exact absurd rfl he
  | @exit f fs callers s hexit =>
      cases callers with
      | nil => exact .exit hexit
      | cons hs callers => exact .exit hexit
  | @fail f fs callers s e hfails =>
      cases callers with
      | nil => exact .fail hfails
      | cons hs callers => exact .fail hfails
  | @tooDeep f fs callers s body hcalls hge =>
      cases callers with
      | nil => exact .tooDeep hcalls hge
      | cons hs callers => exact .tooDeep hcalls (by rwa [length_appendLast])

lemma followedBy_state (gs : List Form) (p : Point M) : (p.followedBy gs).state = p.state := by
  match p with
  | ⟨_, [], _⟩ | ⟨_, _ :: _, _⟩ => rfl

end Point

/-! ## Lines put together -/

section join

variable {a b : String} {c : Char} {n : Nat} {s t u : EvalState M} {cs ds : List Command}
  {e : Except EvalError Flow}

/-- A line, a terminator, and a second line. -/
def joined (a : String) (c : Char) (b : String) : String :=
  a ++ String.singleton c ++ b

lemma toList_joined (a : String) (c : Char) (b : String) :
    (joined a c b).toList = a.toList ++ c :: b.toList := by
  simp [joined]

lemma forms_joined (ha : QuotesClosed a.toList) (hc : isTerminator c = true) (b : String) :
    (parse (joined a c b).toList).forms = (parse a.toList).forms ++ (parse b.toList).forms := by
  rw [toList_joined, forms_join ha hc]

lemma start_joined (ha : QuotesClosed a.toList) (hc : isTerminator c = true) (b : String)
    (s : EvalState M) :
    Point.start (joined a c b) s = (Point.start a s).followedBy (parse b.toList).forms := by
  rw [Point.start, forms_joined ha hc]
  rfl

lemma Evaluates.joined_of_goOn (ha : QuotesClosed a.toList) (hc : isTerminator c = true)
    (hfirst : Evaluates launch n a s cs (.ok .goOn) t) (hsecond : Evaluates launch n b t ds e u) :
    Evaluates launch n (joined a c b) s (cs ++ ds) e u := by
  obtain ⟨q, hrun, hstops, rfl⟩ := hfirst
  obtain ⟨r, hrest, hend, rfl⟩ := hsecond
  cases hstops with
  | done =>
      have hjoined := hrun.followedBy (parse b.toList).forms
      rw [← start_joined ha hc] at hjoined
      exact ⟨r, hjoined.trans hrest, hend, rfl⟩

lemma Evaluates.joined_of_ne (ha : QuotesClosed a.toList) (hc : isTerminator c = true)
    (h : Evaluates launch n a s cs e t) (he : e ≠ .ok .goOn) (b : String) :
    Evaluates launch n (joined a c b) s cs e t := by
  obtain ⟨q, hrun, hstops, rfl⟩ := h
  have hjoined := hrun.followedBy (parse b.toList).forms
  rw [← start_joined ha hc] at hjoined
  exact ⟨_, hjoined, hstops.followedBy he _, Point.followedBy_state _ q⟩

/-- The evaluation of lines put together: that of the first line, and that of the second behind it
if the first goes on. -/
theorem evaluates_joined_iff (ha : QuotesClosed a.toList) (hc : isTerminator c = true) :
    Evaluates launch n (joined a c b) s cs e u ↔
      (∃ ds t es, Evaluates launch n a s ds (.ok .goOn) t ∧ Evaluates launch n b t es e u ∧
        cs = ds ++ es) ∨
      e ≠ .ok .goOn ∧ Evaluates launch n a s cs e u := by
  constructor
  · intro h
    obtain ⟨ds, d, t, hfirst⟩ := exists_evaluates launch n a s
    by_cases hd : d = .ok .goOn
    · subst hd
      obtain ⟨es, e', u', hsecond⟩ := exists_evaluates launch n b t
      obtain ⟨rfl, rfl, rfl⟩ := h.unique (hfirst.joined_of_goOn ha hc hsecond)
      exact .inl ⟨ds, t, es, hfirst, hsecond, rfl⟩
    · obtain ⟨rfl, rfl, rfl⟩ := h.unique (hfirst.joined_of_ne ha hc hd b)
      exact .inr ⟨hd, hfirst⟩
  · rintro (⟨ds, t, es, hfirst, hsecond, rfl⟩ | ⟨he, hfirst⟩)
    · exact hfirst.joined_of_goOn ha hc hsecond
    · exact hfirst.joined_of_ne ha hc he b

/-- **Lines put together run one after the other**, however many calls may still be made: the same
result, the same state and the same commands on the way, programs among them.  What leaves the
shell, in the body of whatever function, leaves both lines. -/
theorem evalSource_joined (ha : QuotesClosed a.toList) (hc : isTerminator c = true)
    (launch : Launcher M) (n : Nat) (b : String) :
    evalSource launch n (joined a c b)
        = .andThen (evalSource launch n a) (evalSource launch n b) ∧
      (∀ s cs e u, Evaluates launch n (joined a c b) s cs e u ↔
        (∃ ds t es, Evaluates launch n a s ds (.ok .goOn) t ∧ Evaluates launch n b t es e u ∧
          cs = ds ++ es) ∨
        e ≠ .ok .goOn ∧ Evaluates launch n a s cs e u) ∧
      ∀ s f fs callers t, Reaches launch n a s ⟨f :: fs, callers, t⟩ →
        f.command t.scope = .ok .exit → evalSource launch n (joined a c b) s = (.ok .exit, t) := by
  have hthen : evalSource launch n (joined a c b)
      = .andThen (evalSource launch n a) (evalSource launch n b) := by
    rw [evalSource, forms_joined ha hc, runForms_append]
    rfl
  refine ⟨hthen, fun s cs e u => evaluates_joined_iff ha hc, ?_⟩
  intro s f fs callers t hreaches hexit
  have hfirst := hreaches.evalSource_eq (.exit hexit)
  have hne : (evalSource launch n a s).1 ≠ .ok .goOn := by simp [hfirst]
  rw [hthen, Evaluation.andThen_of_ne hne, hfirst]

/-- A terminator between quotes ends nothing, and one behind the closing quote ends the line. -/
theorem evalSource_joined_quoted :
    QuotesClosed "set x 'a;b'".toList ∧ isTerminator ';' = true ∧
      evalSource (fun (_ : Unit) _ _ => .error .notFound) maxCallDepth
          (joined "set x 'a;b'" ';' "set y $x")
        = .andThen
            (evalSource (fun (_ : Unit) _ _ => .error .notFound) maxCallDepth "set x 'a;b'")
            (evalSource (fun (_ : Unit) _ _ => .error .notFound) maxCallDepth "set y $x") := by
  have hclosed : QuotesClosed "set x 'a;b'".toList := by
    have hlast : (lex "set x 'a;b'".toList).getLast?
        = some (.primary (.singleQuoted "a;b".toList true)) := by
      simp [lex_cons, Lexeme.scan, Primary.scan, isTerminator, isSpace, isBareChar,
        Primary.scanQuoted, Primary.Quoted.cons]
    intro p hp
    rw [hlast] at hp
    obtain rfl := Lexeme.primary.inj (Option.some.inj hp)
    rfl
  exact ⟨hclosed, rfl, (evalSource_joined hclosed rfl _ _ _).1⟩

end join

end LineShell
