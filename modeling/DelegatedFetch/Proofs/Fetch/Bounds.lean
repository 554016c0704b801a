import DelegatedFetch.Proofs.Fetch.Course

/-!
# A call ends soon

A call makes at most two attempts. Over both it sends at most five requests,
and of each purpose no more than the courses of calls allow. A request for a
request token ends the call.
-/

namespace DelegatedFetch.Call

open Purpose

variable {c : Call}

/-- Attempts, and how many are made. -/
def countedLoop (c : Call) (recovered : Bool) (p : Progress) :
    (Except Stop (Option Response) × Progress) × Nat :=
  match _h : c.attempt recovered p with
  | (.ok (.done response), p) => ((.ok response, p), 1)
  | (.ok .retry, p) => ((c.countedLoop true p).1, (c.countedLoop true p).2 + 1)
  | (.error stop, p) => ((.error stop, p), 1)
termination_by if recovered then 0 else 1
decreasing_by
  all_goals
    cases recovered with
    | false => decide
    | true => exact absurd rfl (c.attempt_concludes.answer trivial _h)

/-- Counting changes nothing of what the attempts do. -/
theorem countedLoop_fst (recovered : Bool) (p : Progress) :
    (c.countedLoop recovered p).1 = c.loop recovered p := by
  fun_induction c.countedLoop recovered p with
  | case1 recovered p response p' ran => rw [loop_eq, ran]
  | case2 recovered p p' ran ih => rw [loop_eq, ran, ih]
  | case3 recovered p stop p' ran => rw [loop_eq, ran]

theorem countedLoop_snd_le_one (p : Progress) : (c.countedLoop true p).2 ≤ 1 := by
  rw [countedLoop]
  split
  · exact Nat.le_refl _
  · rename_i p' ran
    exact absurd rfl (c.attempt_concludes.answer trivial ran)
  · exact Nat.le_refl _

theorem countedLoop_snd_le_two (p : Progress) : (c.countedLoop false p).2 ≤ 2 := by
  rw [countedLoop]
  split
  · exact Nat.le_succ 1
  · exact Nat.succ_le_succ (c.countedLoop_snd_le_one _)
  · exact Nat.le_succ 1

/-- How many requests of each purpose, and of all, there are at most. -/
theorem Follows.bounds {p : Progress} (h : Follows p) :
    p.purposes.length ≤ 5 ∧ p.purposes.count resource ≤ 2 ∧ p.purposes.count extension ≤ 2 ∧
      p.purposes.count accessToken ≤ 1 ∧ p.purposes.count requestToken ≤ 1 := by
  obtain ⟨course, mem, part⟩ := h
  have each : ∀ course ∈ courses, course.length ≤ 5 ∧ course.count resource ≤ 2 ∧
      course.count extension ≤ 2 ∧ course.count accessToken ≤ 1 ∧
      course.count requestToken ≤ 1 := by decide
  obtain ⟨length, resources, extensions, trades, requests⟩ := each course mem
  exact ⟨Nat.le_trans part.length_le length, Nat.le_trans (part.count_le _) resources,
    Nat.le_trans (part.count_le _) extensions, Nat.le_trans (part.count_le _) trades,
    Nat.le_trans (part.count_le _) requests⟩

/-- What a course has at its end only, nothing follows in a part of it. -/
theorem eq_nil_of_sublist {before after course : List Purpose}
    (part : (before ++ requestToken :: after).Sublist course)
    (last : requestToken ∉ course.dropLast) : after = [] := by
  cases after with
  | nil => rfl
  | cons x xs =>
    have shorter := (List.reverse_sublist.2 part).tail
    rw [List.tail_reverse, List.tail_reverse, List.reverse_sublist,
      List.dropLast_append_cons] at shorter
    refine absurd (shorter.subset ?_) last
    exact List.mem_append_right _ (List.mem_cons_self)

theorem Follows.last {p : Progress} (h : Follows p) {before after : List Exchange} {e : Exchange}
    (sent : p.sent = before ++ e :: after) (purpose : e.purpose = requestToken) : after = [] := by
  obtain ⟨course, mem, part⟩ := h
  have ends : ∀ course ∈ courses, requestToken ∉ course.dropLast := by decide
  rw [Progress.purposes, sent, List.map_append, List.map_cons, purpose] at part
  exact List.map_eq_nil_iff.1 (eq_nil_of_sublist part (ends course mem))

/-- A call ends after two attempts at most, and has sent five requests at most: two for the
resource, two to extend a session, one to trade a request token, and one for a request token, which
is then the last. -/
theorem fetch_bounded (c : Call) (s : Surroundings) :
    (∀ p, (c.countedLoop false p).1 = c.loop false p ∧ (c.countedLoop false p).2 ≤ 2) ∧
      (c.fetch s).2.sent.length ≤ 5 ∧
      (c.fetch s).2.purposes.count resource ≤ 2 ∧
      (c.fetch s).2.purposes.count extension ≤ 2 ∧
      (c.fetch s).2.purposes.count accessToken ≤ 1 ∧
      (c.fetch s).2.purposes.count requestToken ≤ 1 ∧
      ∀ before e after, (c.fetch s).2.sent = before ++ e :: after →
        e.purpose = requestToken → after = [] := by
  have follows := c.follows_fetch s
  obtain ⟨length, bounds⟩ := follows.bounds
  rw [Progress.purposes, List.length_map] at length
  refine ⟨fun p => ⟨countedLoop_fst false p, c.countedLoop_snd_le_two p⟩, length, bounds.1,
    bounds.2.1, bounds.2.2.1, bounds.2.2.2, ?_⟩
  intro before e after sent purpose
  exact follows.last sent purpose

end DelegatedFetch.Call
