import GuardTree.Proofs.Reduction.Steps
import GuardTree.Reduction.Session

/-! # A session reduces its tree once

`Session.attempts` are the answers of a session to any number of attempts, with the session after
each. Up to the first reduction that succeeds every attempt starts from the original tree again, and
after it none is made any more (`attempts_one_shot`).
-/

namespace GuardTree

set_option autoImplicit false

namespace Session

/-! ## One attempt -/

variable {s : Session} {r : Option Resolver}

/-- The session once `data` has come out of its reduction. -/
def finish (s : Session) (data : Node) : Session := { s with data := data, stage := .reduced }

theorem reduce_of_unreduced (hs : s.stage = .unreduced) (hk : s.data.kind = .mapping)
    (hne : s.data ≠ .mapping []) :
    (s.reduce r).outcome = (s.engine.reduce s.policy r s.data).outcome.map s.finish := by
  obtain ⟨engine, policy, data, stage⟩ := s
  obtain rfl : stage = .unreduced := hs
  cases data with
  | scalar leaf => cases leaf <;> cases hk
  | list => cases hk
  | mapping entries =>
    cases entries with
    | nil => exact absurd rfl hne
    | cons entry entries =>
      dsimp only [reduce]
      rw [Traced.bind_ok (a := ()) rfl]
      cases h : (engine.reduce policy r (.mapping (entry :: entries))).outcome with
      | ok data =>
        rw [Traced.bind_ok h]
        rfl
      | error f =>
        rw [Traced.bind_error h]
        rfl

theorem reduce_of_reduced (hs : s.stage = .reduced) : s.reduce r = Traced.fail .alreadyReduced := by
  rw [reduce, hs]

theorem reduce_of_empty (hs : s.stage = .unreduced) (hd : s.data = .mapping []) :
    s.reduce r = Traced.fail .emptyData := by
  rw [reduce, hs, hd]

theorem after_of_ok {s' : Session} (h : (s.reduce r).outcome = .ok s') : s.after r = s' := by
  rw [after, h]

theorem after_of_error {f : Failure} (h : (s.reduce r).outcome = .error f) : s.after r = s := by
  rw [after, h]

/-! ## Any number of attempts -/

/-- The answers to some attempts, each with the session after it. -/
def attempts (s : Session) : List (Option Resolver) → List (Except Failure Unit × Session)
  | [] => []
  | r :: rs => ((s.reduce r).outcome.map fun _ => (), s.after r) :: (s.after r).attempts rs

/-- An attempt that fails as the reduction of the tree does, and changes nothing. -/
def Refused (s : Session) (r : Option Resolver) (answer : Except Failure Unit × Session) : Prop :=
  ∃ f, (s.engine.reduce s.policy r s.data).outcome = .error f ∧ answer = (.error f, s)

/-- A session that gives the same failure to every attempt stays as it is. -/
theorem attempts_of_fail {f : Failure} (h : ∀ r, (s.reduce r).outcome = .error f)
    (rs : List (Option Resolver)) : s.attempts rs = rs.map fun _ => (.error f, s) := by
  induction rs with
  | nil => rfl
  | cons r rs ih =>
    rw [attempts, after_of_error (h r), ih, h r]
    rfl

theorem attempts_of_unreduced (hs : s.stage = .unreduced) (hk : s.data.kind = .mapping)
    (hne : s.data ≠ .mapping []) (rs : List (Option Resolver)) :
    List.Forall₂ s.Refused rs (s.attempts rs) ∨
      ∃ before r later refusals data, rs = before ++ r :: later ∧
        List.Forall₂ s.Refused before refusals ∧
        (s.engine.reduce s.policy r s.data).outcome = .ok data ∧
        s.attempts rs = refusals ++ (.ok (), s.finish data) ::
          later.map fun _ => (.error .alreadyReduced, s.finish data) := by
  induction rs with
  | nil => exact .inl .nil
  | cons r rs ih =>
    have hr := reduce_of_unreduced (r := r) hs hk hne
    cases ho : (s.engine.reduce s.policy r s.data).outcome with
    | error f =>
      rw [ho] at hr
      have hrefused : s.Refused r ((s.reduce r).outcome.map fun _ => (), s.after r) := by
        rw [after_of_error hr, hr]
        exact ⟨f, ho, rfl⟩
      rw [attempts]
      rw [after_of_error hr] at hrefused ⊢
      obtain hall | ⟨before, q, later, refusals, data, rfl, hbefore, hq, heq⟩ := ih
      · exact .inl (.cons hrefused hall)
      · refine .inr ⟨r :: before, q, later, _ :: refusals, data, rfl, .cons hrefused hbefore, hq, ?_⟩
        rw [heq]
        rfl
    | ok data =>
      rw [ho] at hr
      have hdone : ∀ q, ((s.finish data).reduce q).outcome = .error .alreadyReduced := by
        intro q
        rw [reduce_of_reduced rfl]
        rfl
      refine .inr ⟨[], r, rs, [], data, rfl, .nil, ho, ?_⟩
      rw [attempts, after_of_ok hr, attempts_of_fail hdone, hr]
      rfl

theorem start_eq_ok_iff {e : Engine} {policy : Policy} {t : Node} :
    start e policy t = .ok s ↔ t.kind = .mapping ∧ s = ⟨e, policy, t, .unreduced⟩ := by
  cases t with
  | mapping entries => simp [start, Node.kind, eq_comm]
  | list items => simp [start, Node.kind]
  | scalar leaf => cases leaf <;> simp [start, Node.kind]

theorem reduce_ok {e : Engine} {policy : Policy} {t : Node} {r : Option Resolver} {s s' : Session}
    (hs : start e policy t = .ok s) (h : (s.reduce r).outcome = .ok s') :
    (e.reduce policy r t).outcome = .ok s'.data := by
  obtain ⟨hk, rfl⟩ := start_eq_ok_iff.1 hs
  by_cases ht : t = .mapping []
  · rw [reduce_of_empty rfl ht] at h
    cases h
  · rw [reduce_of_unreduced rfl hk ht] at h
    cases ho : (e.reduce policy r t).outcome with
    | error f =>
      dsimp only at h
      rw [ho] at h
      cases h
    | ok data =>
      dsimp only at h
      rw [ho] at h
      cases h
      rfl

/-- **A session is reduced once or not at all.** A session can be started on a mapping and on nothing
else. On the empty mapping every attempt fails. Otherwise all attempts before the first reduction that
succeeds fail as the reduction of the original tree does and leave the session as it was started;
that reduction puts its result in place of the tree, whatever it is; and from then on attempts fail
without changing anything. The policy stays throughout. -/
theorem attempts_one_shot (e : Engine) (policy : Policy) (t : Node) :
    ((∃ s, start e policy t = .ok s) ↔ t.kind = .mapping) ∧
      ∀ s, start e policy t = .ok s → s = ⟨e, policy, t, .unreduced⟩ ∧ ∀ rs,
        (t = .mapping [] ∧ s.attempts rs = rs.map fun _ => (.error .emptyData, s)) ∨
        (t ≠ .mapping [] ∧
          (List.Forall₂ s.Refused rs (s.attempts rs) ∨
            ∃ before r later refusals data, rs = before ++ r :: later ∧
              List.Forall₂ s.Refused before refusals ∧
              (e.reduce policy r t).outcome = .ok data ∧
              s.attempts rs = refusals ++ (.ok (), ⟨e, policy, data, .reduced⟩) ::
                later.map fun _ => (.error .alreadyReduced, ⟨e, policy, data, .reduced⟩))) := by
  refine ⟨by simp [start_eq_ok_iff], fun s hs => ?_⟩
  obtain ⟨hk, rfl⟩ := start_eq_ok_iff.1 hs
  refine ⟨rfl, fun rs => ?_⟩
  by_cases ht : t = .mapping []
  · refine .inl ⟨ht, attempts_of_fail (fun r => ?_) rs⟩
    rw [reduce_of_empty rfl ht]
    rfl
  · exact .inr ⟨ht, attempts_of_unreduced rfl hk ht rs⟩

/-- The result may be a scalar. -/
theorem attempts_one_shot_scalar :
    start (Engine.ofTable []) .last (.mapping [("$K", .null)]) =
        .ok ⟨Engine.ofTable [], .last, .mapping [("$K", .null)], .unreduced⟩ ∧
      attempts ⟨Engine.ofTable [], .last, .mapping [("$K", .null)], .unreduced⟩
        [some fun _ => some "else", none] =
        [(.ok (), ⟨Engine.ofTable [], .last, .null, .reduced⟩),
          (.error .alreadyReduced, ⟨Engine.ofTable [], .last, .null, .reduced⟩)] := by
  have hok : ((Engine.ofTable []).reduce .last (some fun _ => some "else")
      (.mapping [("$K", .null)])).outcome = .ok .null := by
    refine Engine.reduce_mapping_ok_iff.2 ⟨[("else", .null)], ?_, .inl ⟨rfl, ?_⟩⟩
    · rw [Engine.expandKeys_eq]
      cbv
    · exact Engine.collapse_ok_iff.2 (.inr ⟨("else", .null), by cbv, by cbv, .inr ⟨rfl, rfl⟩⟩)
  have hrefused : ∀ {answer}, ¬ Refused ⟨Engine.ofTable [], .last, .mapping [("$K", .null)],
      .unreduced⟩ (some fun _ => some "else") answer := by
    rintro answer ⟨f, hf, -⟩
    cases hok.symm.trans hf
  refine ⟨rfl, ?_⟩
  obtain ⟨-, hruns⟩ := (attempts_one_shot (Engine.ofTable []) .last
    (.mapping [("$K", .null)])).2 _ rfl
  obtain ⟨hempty, -⟩ | ⟨-, hall | ⟨before, r, later, refusals, data, hrs, hbefore, hr, heq⟩⟩ :=
    hruns [some fun _ => some "else", none]
  · cases hempty
  · obtain ⟨_, _, h, -⟩ := List.forall₂_cons_left_iff.1 hall
    exact absurd h hrefused
  · cases before with
    | nil =>
      obtain ⟨rfl, rfl⟩ := List.cons.inj hrs
      cases hbefore
      obtain rfl := Except.ok.inj (hok.symm.trans hr)
      exact heq
    | cons q before =>
      obtain ⟨rfl, -⟩ := List.cons.inj hrs
      obtain ⟨_, _, h, -⟩ := List.forall₂_cons_left_iff.1 hbefore
      exact absurd h hrefused

end Session

end GuardTree
