import DelegatedFetch.Fetch.Call

/-!
# What parts of a call ensure

A part of a call is judged by a condition on the progress before it and by two
conditions on what it leaves: one for an answer, one for a stop. There is a
rule for each way in which parts are put together. What a part has done before
it stops stays done, so the condition for a stop speaks of progress, too.
-/

namespace DelegatedFetch.Step

variable {α β : Type} {P P' : Progress → Prop} {Q Q' : α → Progress → Prop}
  {R : β → Progress → Prop} {E E' : Stop → Progress → Prop}

theorem bind_run (x : Step α) (f : α → Step β) (p : Progress) :
    (x >>= f) p = match x p with
      | (.ok a, p) => f a p
      | (.error s, p) => (.error s, p) := by
  change (ExceptT.bindCont f (x p).1) (x p).2 = _
  rcases x p with ⟨_ | _, p'⟩ <;> rfl

theorem tryCatch_run (x : Step α) (h : Stop → Step α) (p : Progress) :
    (tryCatch x h : Step α) p = match x p with
      | (.ok a, p) => (.ok a, p)
      | (.error s, p) => h s p := by
  simp only [tryCatch, tryCatchThe, MonadExceptOf.tryCatch, ExceptT.tryCatch, ExceptT.mk, bind,
    StateT.bind]
  rcases x p with ⟨_ | _, p'⟩ <;> rfl

theorem observing_run (x : Step α) (p : Progress) :
    (observing x : Step (Except Stop α)) p = (.ok (x p).1, (x p).2) := by
  change (tryCatch (x >>= fun a => pure (Except.ok a)) _ : Step (Except Stop α)) p = _
  rw [tryCatch_run, bind_run]
  rcases x p with ⟨_ | _, p'⟩ <;> rfl

/-- The conditions on how a part of a call ends. -/
def Ends (Q : α → Progress → Prop) (E : Stop → Progress → Prop) :
    Except Stop α × Progress → Prop
  | (.ok a, p) => Q a p
  | (.error s, p) => E s p

/-- Begun where `P` holds, a part of a call answers where `Q` holds or stops where `E` holds. -/
def Ensures (P : Progress → Prop) (x : Step α) (Q : α → Progress → Prop)
    (E : Stop → Progress → Prop) : Prop := ∀ p, P p → Ends Q E (x p)

theorem Ensures.answer {x : Step α} (h : Ensures P x Q E) {p p' : Progress} {a : α} (hp : P p)
    (hx : x p = (.ok a, p')) : Q a p' := by
  have ends := h p hp
  rwa [hx] at ends

theorem Ensures.stop {x : Step α} (h : Ensures P x Q E) {p p' : Progress} {s : Stop} (hp : P p)
    (hx : x p = (.error s, p')) : E s p' := by
  have ends := h p hp
  rwa [hx] at ends

/-- A condition on how a part ends holds of the way in which it does. -/
theorem Ensures.outcome {x : Step α} {T : Except Stop α → Progress → Prop} {r : Except Stop α}
    {p p' : Progress} (h : Ensures P x (fun a => T (.ok a)) fun s => T (.error s)) (hp : P p)
    (hx : x p = (r, p')) : T r p' := by
  cases r with
  | ok a => exact h.answer hp hx
  | error s => exact h.stop hp hx

theorem Ensures.weaken {x : Step α} (h : Ensures P x Q E) (before : ∀ p, P' p → P p)
    (after : ∀ a p, Q a p → Q' a p) (stopped : ∀ s p, E s p → E' s p) :
    Ensures P' x Q' E' := by
  intro p hp
  have ends := h p (before p hp)
  rcases hx : x p with ⟨s | a, p'⟩
  · exact stopped s p' (h.stop (before p hp) hx)
  · exact after a p' (h.answer (before p hp) hx)

theorem Ensures.of_imp {x : Step α} (h : Ensures P x Q E) (before : ∀ p, P' p → P p) :
    Ensures P' x Q E :=
  h.weaken before (fun _ _ h => h) fun _ _ h => h

/-- What holds whatever the progress need not be carried along. -/
theorem Ensures.of_fact {φ : Prop} {x : Step α} (h : φ → Ensures P x Q E) :
    Ensures (fun p => φ ∧ P p) x Q E :=
  fun p hp => h hp.1 p hp.2

theorem ensures_true (x : Step α) : Ensures P x (fun _ _ => True) fun _ _ => True := by
  intro p _
  rcases x p with ⟨_ | _, p'⟩ <;> exact trivial

theorem ensures_pure {a : α} (h : ∀ p, P p → Q a p) : Ensures P (pure a) Q E := h

theorem ensures_throw {s : Stop} (h : ∀ p, P p → E s p) : Ensures P (throw s) Q E := h

/-- What would follow a stop does not matter. -/
theorem ensures_throw_bind {s : Stop} {f : β → Step α} (h : ∀ p, P p → E s p) :
    Ensures P (throw s >>= f) Q E := h

theorem ensures_modify {f : Progress → Progress} {Q : PUnit → Progress → Prop}
    (h : ∀ p, P p → Q ⟨⟩ (f p)) : Ensures P (modify f) Q E := h

theorem Ensures.bind {x : Step β} {f : β → Step α} (hx : Ensures P x R E)
    (hf : ∀ b, Ensures (R b) (f b) Q E) : Ensures P (x >>= f) Q E := by
  intro p hp
  rw [bind_run]
  rcases h : x p with ⟨s | b, p'⟩
  · exact hx.stop hp h
  · exact hf b p' (hx.answer hp h)

theorem ensures_get_bind {f : Progress → Step α}
    (h : ∀ q, P q → Ensures (· = q) (f q) Q E) : Ensures P (get >>= f) Q E := by
  intro p hp
  rw [bind_run]
  exact h p hp p rfl

theorem ensures_ofExcept {x : Except Refusal α} (answered : ∀ a, x = .ok a → ∀ p, P p → Q a p)
    (refused : ∀ r, x = .error r → ∀ p, P p → E (.refused r) p) :
    Ensures P (ofExcept x) Q E := by
  cases x with
  | ok a => exact answered a rfl
  | error r => exact refused r rfl

/-- A check that was passed is a fact for what follows. -/
theorem ensures_ofExcept_bind {x : Except Refusal β} {f : β → Step α}
    (refused : ∀ r, x = .error r → ∀ p, P p → E (.refused r) p)
    (answered : ∀ b, x = .ok b → Ensures P (f b) Q E) : Ensures P (ofExcept x >>= f) Q E := by
  cases x with
  | ok b => exact answered b rfl
  | error r => exact refused r rfl

theorem ensures_now {Q : UInt64 → Progress → Prop} (h : ∀ p, P p → Q p.clock.millis p) :
    Ensures P now Q E :=
  ensures_get_bind fun q hq => ensures_pure fun _ hp => hp ▸ h q hq

theorem Ensures.observing {x : Step α} {Q : Except Stop α → Progress → Prop}
    (h : Ensures P x (fun a => Q (.ok a)) fun s => Q (.error s)) :
    Ensures P (observing x) Q E := by
  intro p hp
  rw [observing_run]
  rcases hx : x p with ⟨s | a, p'⟩
  · exact h.stop hp hx
  · exact h.answer hp hx

theorem Ensures.discard {x : Step α} {Q : Unit → Progress → Prop}
    (h : Ensures P x (fun _ => Q ()) E) : Ensures P (discard x) Q E :=
  h.bind fun _ => ensures_pure fun _ hp => hp

end DelegatedFetch.Step
