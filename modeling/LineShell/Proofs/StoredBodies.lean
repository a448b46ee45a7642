import LineShell.Proofs.DefinedNames

/-!
# Bodies of functions

The body of a function is kept as a text, its words with a blank between each two of them, and every
call reads this text again under the scope of that moment.  Bare words survive that: nothing in them
ends a word, is taken away as a quote, or is replaced by a value.  So the text has one form, and
whatever the scope has become its words are the ones that were given.

* `IsBareWord` — a word that stands for itself on a line.
* `parse_bareWords`, `expand_bareWords` — the text of such words, and what it stands for.
* `callFunction_bareWords` — a call runs the command that the words ask for, one call deeper.
* **`stored_words_run`** — so does every form that calls the function.
-/

namespace LineShell

variable {M : Type}

/-- A word of characters that stand for themselves, at least one. -/
structure IsBareWord (w : String) : Prop where
  ne_empty : w ≠ ""
  bare : ∀ c ∈ w.toList, isBareChar c = true

/-! ## Reading the text again -/

/-- A bare word as a segment. -/
def bareSegment (w : String) : Primary :=
  .bareword w.toList

lemma IsBareWord.munched {w : String} (h : IsBareWord w) {rest : List Char}
    (hrest : Stops isWordChar rest) : (bareSegment w).Munched rest := by
  refine ⟨?_, h.bare, hrest.of_isWordChar fun _ => isWordChar_of_isBareChar⟩
  intro hnil
  exact h.ne_empty (String.toList_eq_nil_iff.1 hnil)

/-- The text of bare words is one form, in which each word is one segment. -/
lemma parse_bareWords {ws : List String} (hne : ws ≠ []) (hbare : ∀ w ∈ ws, IsBareWord w) :
    parse (" ".intercalate ws).toList = ⟨[.form ⟨spaced (ws.map bareSegment)⟩]⟩ := by
  have htext : (ws.map bareSegment).map Primary.text = ws.map String.toList := by
    simp [bareSegment, Primary.text]
  have hmunched : ∀ p ∈ ws.map bareSegment, ∀ rest, Stops isWordChar rest → p.Munched rest := by
    intro p hp rest hrest
    obtain ⟨w, hw, rfl⟩ := List.mem_map.1 hp
    exact (hbare w hw).munched hrest
  rw [String.toList_intercalate, ← htext]
  exact parse_spaced_of_munched (by simpa using hne) hmunched

/-- Bare words stand for themselves under every scope. -/
lemma expand_bareWords (scope : Scope) (ws : List String) :
    Form.expand scope ⟨spaced (ws.map bareSegment)⟩ = .ok ws := by
  rw [Form.expand, words_spaced]
  induction ws with
  | nil => rfl
  | cons w ws ih =>
      have hw : (bareSegment w).expand scope = .ok w := by
        simp [bareSegment, Primary.expand, Primary.kind, Primary.value]
      rw [List.map_cons, List.map_cons, List.mapM_cons, Compound.expand_singleton hw, ih]
      rfl

/-! ## Calling -/

section calling

variable {launch : Launcher M} {ws : List String}

/-- Calling a function whose body is made of bare words runs the command that they ask for, with one
call less to make. -/
lemma callFunction_bareWords (hne : ws ≠ []) (hbare : ∀ w ∈ ws, IsBareWord w) (n : Nat) :
    callFunction launch (n + 1) (" ".intercalate ws)
      = (Command.ofWords ws).run launch (callFunction launch n) := by
  funext s
  rw [callFunction_succ, evalSource, parse_bareWords hne hbare]
  simp only [Chunk.forms, List.filterMap_cons, List.filterMap_nil]
  rw [runForms, runForms, Evaluation.andThen_done, Form.run, expand_bareWords]

/-- How functions are called where so many of them are active already. -/
def callAt (launch : Launcher M) (depth : Nat) : String → Evaluation M :=
  callFunction launch (maxCallDepth - depth)

lemma callAt_bareWords (hne : ws ≠ []) (hbare : ∀ w ∈ ws, IsBareWord w) {depth : Nat}
    (hdepth : depth < maxCallDepth) :
    callAt launch depth (" ".intercalate ws)
      = (Command.ofWords ws).run launch (callAt launch (depth + 1)) := by
  obtain ⟨n, hn⟩ : ∃ n, maxCallDepth - depth = n + 1 := ⟨maxCallDepth - (depth + 1), by omega⟩
  have hnext : maxCallDepth - (depth + 1) = n := by omega
  rw [callAt, callAt, hn, hnext, callFunction_bareWords hne hbare]

/-- The state after a function has been defined by the words of its body. -/
def EvalState.store (name : String) (ws : List String) (s : EvalState M) : EvalState M :=
  { s with scope := s.scope.define name (" ".intercalate ws) }

lemma function?_store (name : String) (ws : List String) (s : EvalState M) :
    (s.store name ws).scope.function? name = some (" ".intercalate ws) := by
  simp [EvalState.store, Scope.define, Scope.function?]

/-- To define a function is to store the words behind its name, if there are any. -/
lemma run_define (hne : ws ≠ []) (name : String) (call : String → Evaluation M)
    (s : EvalState M) :
    (Command.ofWords ("fn" :: name :: ws)).run launch call s = (.ok .goOn, s.store name ws) := by
  obtain ⟨w, ws, rfl⟩ := List.exists_cons_of_ne_nil hne
  simp [Command.ofWords, Command.named, Command.run, Evaluation.changing, EvalState.store]

/-- **Stored words run as they were given.**  Their text has one form, with these words under every
scope.  A function that is defined by them has this text, and in every state in which it has it a
call does, whatever it is made with and as long as calls may be made, what the words do one call
deeper in that state. -/
theorem stored_words_run (launch : Launcher M) (hne : ws ≠ [])
    (hbare : ∀ w ∈ ws, IsBareWord w) :
    (∃ f, (parse (" ".intercalate ws).toList).forms = [f] ∧
      ∀ scope, f.expand scope = .ok ws) ∧
    ∀ (name : String) (s : EvalState M),
      (∀ call, (Command.ofWords ("fn" :: name :: ws)).run launch call s
        = (.ok .goOn, s.store name ws)) ∧
      (s.store name ws).scope.function? name = some (" ".intercalate ws) ∧
      ∀ t : EvalState M, t.scope.function? name = some (" ".intercalate ws) →
        ∀ f args depth, Form.Invokes t.scope f name args → depth < maxCallDepth →
          f.run launch (callAt launch depth) t
            = (Command.ofWords ws).run launch (callAt launch (depth + 1)) t := by
  refine ⟨⟨⟨spaced (ws.map bareSegment)⟩, ?_, fun scope => expand_bareWords scope ws⟩, ?_⟩
  · rw [parse_bareWords hne hbare]
    rfl
  · intro name s
    refine ⟨fun call => run_define hne name call s, function?_store name ws s, ?_⟩
    intro t hbody f args depth hinvokes hdepth
    rw [hinvokes.run_of_some hbody, callAt_bareWords hne hbare hdepth]

/-- A function that redefines itself, called where one call more may be made. -/
theorem stored_words_run_redefining :
    ∃ f : Form, f.expand (Scope.empty.define "f" "fn f exit") = .ok ["f", "x"] ∧
      f.run (fun (_ : Unit) _ _ => .error .notFound)
          (callAt (fun (_ : Unit) _ _ => .error .notFound) 63)
          ⟨Scope.empty.define "f" "fn f exit", ()⟩
        = (.ok .goOn, ⟨(Scope.empty.define "f" "fn f exit").define "f" "exit", ()⟩) := by
  have hbare : ∀ w ∈ ["fn", "f", "exit"], IsBareWord w := by
    intro w hw
    rcases (by simpa using hw : w = "fn" ∨ w = "f" ∨ w = "exit") with rfl | rfl | rfl <;>
      exact ⟨by decide, List.all_eq_true.1 (by decide)⟩
  obtain ⟨-, hstored, hrun⟩ :=
    (stored_words_run (fun (_ : Unit) _ _ => .error .notFound) (by simp) hbare).2 "f" ⟨.empty, ()⟩
  have hexpand := expand_bareWords (Scope.empty.define "f" "fn f exit") ["f", "x"]
  refine ⟨_, hexpand, ?_⟩
  exact hrun _ hstored _ ["x"] 63 ⟨hexpand, by decide, by decide⟩ (by decide)

end calling

end LineShell
