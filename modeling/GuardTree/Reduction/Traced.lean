import GuardTree.Reduction.Failure
import GuardTree.Reduction.Record

/-! # Runs with a trace

A `Traced` run has an outcome, a failure or a result, and the events on the way there, in order:
the names that were looked up and the records that were written. The events of a failed run are
those before the failure. Running one after the other puts their events one after the other.
-/

namespace GuardTree

set_option autoImplicit false

inductive Event
  /-- A name was looked up. -/
  | asked (name : String)
  | noted (record : Record)

/-- An outcome and what happened on the way. -/
structure Traced (α : Type) where
  events : List Event
  outcome : Except Failure α

namespace Traced

variable {α β γ : Type}

@[ext] theorem ext {x y : Traced α} (he : x.events = y.events) (ho : x.outcome = y.outcome) :
    x = y := by
  cases x; cases y; cases he; cases ho; rfl

def pure (a : α) : Traced α := ⟨[], .ok a⟩

def fail (f : Failure) : Traced α := ⟨[], .error f⟩

/-- Runs `x` and goes on with its result, which is known to be the result of `x`. -/
def bindWith (x : Traced α) (k : (a : α) → x.outcome = .ok a → Traced β) : Traced β :=
  match h : x.outcome with
  | .ok a =>
    let y := k a h
    ⟨x.events ++ y.events, y.outcome⟩
  | .error f => ⟨x.events, .error f⟩

/-- Runs `x` and goes on with its result. -/
def bind (x : Traced α) (k : α → Traced β) : Traced β := x.bindWith fun a _ => k a

instance : Monad Traced where
  pure := Traced.pure
  bind := Traced.bind

def note (r : Record) : Traced Unit := ⟨[.noted r], .ok ()⟩

def ofExcept (o : Except Failure α) : Traced α := ⟨[], o⟩

/-- The names that were looked up, in order. -/
def asked (x : Traced α) : List String :=
  x.events.filterMap fun
    | .asked name => some name
    | .noted _ => none

/-- The records that were written, in order. -/
def records (x : Traced α) : List Record :=
  x.events.filterMap fun
    | .noted record => some record
    | .asked _ => none

/-- Whether a run fails. -/
def fails (x : Traced α) : Bool :=
  match x.outcome with
  | .ok _ => false
  | .error _ => true

/-! ## Sequencing -/

theorem ok_or_error (x : Traced α) :
    (∃ a, x.outcome = .ok a) ∨ ∃ f, x.outcome = .error f := by
  cases x.outcome <;> simp

theorem bindWith_ok {x : Traced α} {k : (a : α) → x.outcome = .ok a → Traced β} {a : α}
    (h : x.outcome = .ok a) :
    x.bindWith k = ⟨x.events ++ (k a h).events, (k a h).outcome⟩ := by
  unfold bindWith
  split
  · rename_i b hb
    obtain rfl : b = a := by simpa [h] using hb.symm
    rfl
  · rename_i f hf
    simp [h] at hf

theorem bindWith_error {x : Traced α} {k : (a : α) → x.outcome = .ok a → Traced β} {f : Failure}
    (h : x.outcome = .error f) : x.bindWith k = ⟨x.events, .error f⟩ := by
  unfold bindWith
  split
  · rename_i b hb
    simp [h] at hb
  · rename_i g hg
    obtain rfl : g = f := by simpa [h] using hg.symm
    rfl

theorem bind_ok {x : Traced α} {k : α → Traced β} {a : α} (h : x.outcome = .ok a) :
    x >>= k = ⟨x.events ++ (k a).events, (k a).outcome⟩ := bindWith_ok h

theorem bind_error {x : Traced α} {k : α → Traced β} {f : Failure} (h : x.outcome = .error f) :
    x >>= k = ⟨x.events, .error f⟩ := bindWith_error h

theorem asked_bind_of_ok {x : Traced α} {k : α → Traced β} {a : α} (h : x.outcome = .ok a) :
    (x >>= k).asked = x.asked ++ (k a).asked := by
  rw [bind_ok h, asked, List.filterMap_append]
  rfl

theorem asked_bind_of_error {x : Traced α} {k : α → Traced β} {f : Failure} (h : x.outcome = .error f) :
    (x >>= k).asked = x.asked := by
  rw [bind_error h]
  rfl

/-- A result of a sequence is a result of its second run after one of its first. -/
theorem bind_outcome_eq_ok {x : Traced α} {k : α → Traced β} {b : β} :
    (x >>= k).outcome = .ok b ↔ ∃ a, x.outcome = .ok a ∧ (k a).outcome = .ok b := by
  cases h : x.outcome with
  | ok a => simp [bind_ok h]
  | error f => simp [bind_error h]

theorem map_eq_ok_iff {o : Except Failure α} {g : α → β} {b : β} :
    o.map g = .ok b ↔ ∃ a, o = .ok a ∧ b = g a := by
  cases o <;> simp [Except.map, eq_comm]

theorem map_eq_error_iff {o : Except Failure α} {g : α → β} {f : Failure} :
    o.map g = .error f ↔ o = .error f := by
  cases o <;> simp [Except.map]

theorem outcome_bind_pure (x : Traced α) (g : α → β) :
    (x >>= fun a => Pure.pure (g a)).outcome = x.outcome.map g := by
  obtain ⟨a, ha⟩ | ⟨f, hf⟩ := x.ok_or_error
  · rw [bind_ok ha, ha]
    rfl
  · rw [bind_error hf, hf]
    rfl

/-- A result of a sequence that knows the first result. -/
theorem bindWith_outcome_eq_ok {x : Traced α} {k : (a : α) → x.outcome = .ok a → Traced β} {b : β} :
    (x.bindWith k).outcome = .ok b ↔ ∃ a, ∃ h : x.outcome = .ok a, (k a h).outcome = .ok b := by
  constructor
  · intro hb
    rcases x.ok_or_error with ⟨a, h⟩ | ⟨f, h⟩
    · rw [bindWith_ok h] at hb
      exact ⟨a, h, hb⟩
    · rw [bindWith_error h] at hb
      cases hb
  · rintro ⟨a, h, hb⟩
    rw [bindWith_ok h]
    exact hb

theorem map_id (x : Traced α) : id <$> x = x := by
  show x >>= _ = x
  cases h : x.outcome with
  | ok a => rw [bind_ok h]; ext <;> simp [Traced.pure, h]
  | error f => rw [bind_error h]; ext <;> simp [h]

theorem bind_assoc (x : Traced α) (k : α → Traced β) (l : β → Traced γ) :
    x >>= k >>= l = x >>= fun a => k a >>= l := by
  cases h : x.outcome with
  | ok a =>
    rw [bind_ok h, bind_ok h]
    cases h' : (k a).outcome with
    | ok b => rw [bind_ok h', bind_ok rfl]; simp
    | error f => rw [bind_error h', bind_error rfl]
  | error f => rw [bind_error h, bind_error h, bind_error rfl]

instance : LawfulMonad Traced := LawfulMonad.mk' Traced map_id (fun _ _ => bind_ok rfl) bind_assoc

end Traced

end GuardTree
