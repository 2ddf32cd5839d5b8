import GuardTree.Proofs.Reduction.Steps
import GuardTree.Proofs.Tree.EntryLookup

/-! # Two runs side by side

`x.Agrees R y`: the runs `x` and `y` report the same events, and either both have results, which are
related by `R`, or both fail for the same cause. Each step of a reduction is carried from one tree
to another with the same keys (`Entrywise`): keys decide what a step does, values are only passed
on.
-/

namespace GuardTree

set_option autoImplicit false

/-- The same cause; the key, mapping or expression at fault may differ. -/
def Failure.SameCause (f g : Failure) : Prop := f.ctorIdx = g.ctorIdx

namespace Traced

variable {α β γ δ : Type} {R : α → β → Prop} {S : γ → δ → Prop}

inductive OutcomesAgree (R : α → β → Prop) : Except Failure α → Except Failure β → Prop
  | ok {a : α} {b : β} (h : R a b) : OutcomesAgree R (.ok a) (.ok b)
  | error {f g : Failure} (h : f.SameCause g) : OutcomesAgree R (.error f) (.error g)

structure Agrees (R : α → β → Prop) (x : Traced α) (y : Traced β) : Prop where
  events : x.events = y.events
  outcome : OutcomesAgree R x.outcome y.outcome

/-! ## Sequencing -/

namespace Agrees

theorem pure {a : α} {b : β} (h : R a b) : Agrees R (Pure.pure a) (Pure.pure b) :=
  ⟨rfl, .ok h⟩

theorem fail {f g : Failure} (h : f.SameCause g) :
    Agrees R (Traced.fail f : Traced α) (Traced.fail g : Traced β) :=
  ⟨rfl, .error h⟩

theorem refl (x : Traced α) : Agrees Eq x x := by
  refine ⟨rfl, ?_⟩
  cases x.outcome with
  | ok a => exact .ok rfl
  | error f => exact .error rfl

theorem of_eq {x y : Traced α} (h : x = y) : Agrees Eq x y := h ▸ refl x

variable {x : Traced α} {y : Traced β}

theorem mono {R' : α → β → Prop} (h : Agrees R x y) (hR : ∀ a b, R a b → R' a b) :
    Agrees R' x y := by
  have mono_outcome : ∀ {o : Except Failure α} {o' : Except Failure β}, OutcomesAgree R o o' →
      OutcomesAgree R' o o' := by
    intro o o' ho
    cases ho with
    | ok hab => exact .ok (hR _ _ hab)
    | error hfg => exact .error hfg
  exact ⟨h.events, mono_outcome h.outcome⟩

theorem exists_ok (h : Agrees R x y) {a : α} (ha : x.outcome = .ok a) :
    ∃ b, y.outcome = .ok b ∧ R a b := by
  have ho := h.outcome
  rw [ha] at ho
  generalize y.outcome = o at ho
  cases ho with
  | ok hab => exact ⟨_, rfl, hab⟩

theorem bind {k : α → Traced γ} {l : β → Traced δ} (h : Agrees R x y)
    (hk : ∀ a b, x.outcome = .ok a → y.outcome = .ok b → R a b → Agrees S (k a) (l b)) :
    Agrees S (x >>= k) (y >>= l) := by
  have ho := h.outcome
  cases hx : x.outcome with
  | ok a =>
    obtain ⟨b, hy, hab⟩ := h.exists_ok hx
    have hkl := hk a b hx hy hab
    rw [bind_ok hx, bind_ok hy, h.events, hkl.events]
    exact ⟨rfl, hkl.outcome⟩
  | error f =>
    rw [hx] at ho
    cases hy : y.outcome with
    | ok b =>
      rw [hy] at ho
      cases ho
    | error g =>
      rw [hy] at ho
      cases ho with
      | error hfg =>
        rw [bind_error hx, bind_error hy]
        exact ⟨h.events, .error hfg⟩

theorem mapM {f : α → Traced γ} {g : β → Traced δ} {xs : List α} {ys : List β}
    (h : List.Forall₂ R xs ys) (hf : ∀ a b, R a b → Agrees S (f a) (g b)) :
    Agrees (List.Forall₂ S) (xs.mapM f) (ys.mapM g) := by
  induction h with
  | nil =>
    rw [List.mapM_nil, List.mapM_nil]
    exact pure .nil
  | cons hab _ ih =>
    rw [List.mapM_cons, List.mapM_cons]
    refine (hf _ _ hab).bind fun c d _ _ hcd => ?_
    exact ih.bind fun cs ds _ _ hcds => pure (.cons hcd hcds)

end Agrees

/-- Two sequences are equal if their first runs report the same and the rest is equal from their
results on. -/
theorem bind_eq_bind {x : Traced α} {y : Traced β} {k : α → Traced γ} {l : β → Traced γ} {a : α}
    {b : β} (he : x.events = y.events) (hx : x.outcome = .ok a) (hy : y.outcome = .ok b)
    (hkl : k a = l b) : x >>= k = y >>= l := by
  rw [bind_ok hx, bind_ok hy, he, hkl]

end Traced

/-! ## Entries with the same keys -/

/-- The same keys in the same order, with values related by `R`. -/
def Entrywise (R : Node → Node → Prop) (xs ys : List (String × Node)) : Prop :=
  List.Forall₂ (fun x y => x.1 = y.1 ∧ R x.2 y.2) xs ys

namespace Entrywise

variable {R : Node → Node → Prop} {xs ys : List (String × Node)}

theorem keys_eq (h : Entrywise R xs ys) : xs.map Prod.fst = ys.map Prod.fst :=
  (Engine.keys_of_forall₂ (fun _ _ hxy => hxy.1.symm) h).symm

theorem of_keys_eq (h : xs.map Prod.fst = ys.map Prod.fst) : Entrywise (fun _ _ => True) xs ys := by
  have hkeys : List.Forall₂ Eq (xs.map Prod.fst) (ys.map Prod.fst) := by
    rw [List.forall₂_eq_eq_eq]
    exact h
  rw [List.forall₂_map_left_iff, List.forall₂_map_right_iff] at hkeys
  exact hkeys.imp fun _ _ hk => ⟨hk, trivial⟩

theorem eq (h : Entrywise Eq xs ys) : xs = ys := by
  induction h with
  | nil => rfl
  | cons hxy _ ih => rw [Prod.ext hxy.1 hxy.2, ih]

theorem filter (h : Entrywise R xs ys) (p : String → Bool) :
    Entrywise R (xs.filter fun x => p x.1) (ys.filter fun y => p y.1) :=
  List.rel_filter (fun _ _ hxy => iff_of_eq (congrArg (p · = true) hxy.1)) h

theorem lookup_getD (h : Entrywise R xs ys) {key : String} (hk : key ∈ ys.map Prod.fst)
    (default : Node) : R ((xs.lookup key).getD default) ((ys.lookup key).getD default) := by
  induction h with
  | nil => exact absurd hk List.not_mem_nil
  | @cons x y xs ys hxy _ ih =>
    rw [EntryList.lookup_cons, EntryList.lookup_cons, hxy.1]
    by_cases hkey : key = y.1
    · rw [if_pos hkey, if_pos hkey]
      exact hxy.2
    · rw [if_neg hkey, if_neg hkey]
      exact ih ((List.mem_cons.1 hk).resolve_left hkey)

theorem insert (h : Entrywise R xs ys) (key : String) {v w : Node} (hvw : R v w) :
    Entrywise R (EntryList.insert xs key v) (EntryList.insert ys key w) := by
  unfold EntryList.insert
  rw [h.keys_eq]
  split
  · unfold EntryList.update
    refine List.forall₂_map_left_iff.2 (List.forall₂_map_right_iff.2 (h.imp fun x y hxy => ?_))
    rw [hxy.1]
    split
    · exact ⟨rfl, hvw⟩
    · exact hxy
  · exact List.rel_append h (.cons ⟨rfl, hvw⟩ .nil)

theorem insertAll (h : Entrywise R xs ys) {ps qs : List (String × Node)} (hpq : Entrywise R ps qs) :
    Entrywise R (EntryList.insertAll xs ps) (EntryList.insertAll ys qs) := by
  induction hpq generalizing xs ys with
  | nil => exact h
  | @cons p q ps qs hpq _ ih =>
    have hins := h.insert p.1 hpq.2
    rw [EntryList.insertAll, EntryList.insertAll, List.foldl_cons, List.foldl_cons, ← hpq.1]
    exact ih hins

end Entrywise

/-! ## The steps of a reduction -/

namespace Engine

variable {e : Engine} {policy : Policy} {r : Option Resolver} {R S : Node → Node → Prop}
  {xs ys : List (String × Node)}

theorem isGuarded_agrees (h : xs.map Prod.fst = ys.map Prod.fst) :
    (e.isGuarded xs).Agrees Eq (e.isGuarded ys) := by
  unfold isGuarded
  rw [h]
  refine (Traced.Agrees.refl _).bind fun guards guards' _ _ hg => ?_
  rw [hg]
  split
  · exact .refl _
  · split
    · exact .refl _
    · exact .fail rfl

/-- Two lists of entries with the same keys have the same winner. -/
theorem select_agrees (policy : Policy) (h : Entrywise R xs ys) :
    (e.select policy xs).Agrees (fun x y => x.1 = y.1 ∧ R x.2 y.2) (e.select policy ys) := by
  unfold select
  rw [h.keys_eq]
  refine (Traced.Agrees.refl _).bind fun cs cs' _ hcs hc => ?_
  subst hc
  dsimp only
  cases hp : policy.pick (preferred cs) with
  | none => exact .fail rfl
  | some key =>
    have hvalue := h.lookup_getD (mem_keys_of_pick hcs hp) .null
    exact (Traced.Agrees.refl _).bind fun _ _ _ _ _ => .pure ⟨rfl, hvalue⟩

theorem renameEntry_agrees {x y : String × Node} (h : x.1 = y.1 ∧ R x.2 y.2) :
    (renameEntry r x).Agrees (fun x y => x.1 = y.1 ∧ R x.2 y.2) (renameEntry r y) := by
  unfold renameEntry
  rw [h.1]
  refine (Traced.Agrees.refl _).bind fun key key' _ _ hk => ?_
  rw [hk]
  exact (Traced.Agrees.refl _).bind fun _ _ _ _ _ => .pure ⟨rfl, h.2⟩

theorem expandKeys_agrees (h : Entrywise R xs ys) :
    (e.expandKeys r xs).Agrees (Entrywise R) (e.expandKeys r ys) := by
  have hany : (xs.any fun x => e.hasPlaceholder x.1) = ys.any fun y => e.hasPlaceholder y.1 := by
    have hmap := congrArg (fun keys => keys.any e.hasPlaceholder) h.keys_eq
    simpa only [List.any_map, Function.comp_def] using hmap
  rw [expandKeys_eq, expandKeys_eq, hany]
  split
  · refine (Traced.Agrees.mapM (h.filter _) fun _ _ => renameEntry_agrees).bind
      fun ps qs _ _ hpq => .pure ?_
    have hkept := h.filter fun key => !e.hasPlaceholder key
    exact (Entrywise.insertAll .nil hkept).insertAll hpq
  · exact .pure h

theorem expandValues_agrees (h : Entrywise R xs ys)
    (hR : ∀ v w, R v w → v = w ∨ v.entries?.isSome ∧ w.entries?.isSome) (hrefl : ∀ n, R n n) :
    (expandValues r xs).Agrees (Entrywise R) (expandValues r ys) := by
  refine Traced.Agrees.mapM h fun x y hxy => ?_
  obtain hv | ⟨hx, hy⟩ := hR _ _ hxy.2
  · rw [Prod.ext hxy.1 hv]
    exact (Traced.Agrees.refl _).mono fun _ _ hab => hab ▸ ⟨rfl, hrefl _⟩
  · obtain ⟨kx, vx⟩ := x
    obtain ⟨ky, vy⟩ := y
    cases vx <;> cases hx
    cases vy <;> cases hy
    exact .pure hxy

/-- A value is come to if those before it could be reduced. -/
theorem reduceEntries_agrees (h : Entrywise R xs ys)
    (hR : ∀ before key v after w results, xs = before ++ (key, v) :: after → (key, w) ∈ ys →
      R v w → (e.reduceEntries policy r before).outcome = .ok results →
      (e.reduceValue policy r key v).Agrees S (e.reduceValue policy r key w)) :
    (e.reduceEntries policy r xs).Agrees (Entrywise S) (e.reduceEntries policy r ys) := by
  induction h with
  | nil =>
    rw [reduceEntries]
    exact .pure .nil
  | @cons x y xs ys hxy _ ih =>
    obtain ⟨key, v⟩ := x
    obtain ⟨key', w⟩ := y
    obtain ⟨rfl, hvw⟩ := hxy
    have hnil : (e.reduceEntries policy r []).outcome = .ok [] := by
      rw [reduceEntries]
      rfl
    rw [reduceEntries, reduceEntries]
    refine (hR [] key v xs w [] rfl List.mem_cons_self hvw hnil).bind fun v' w' hv' _ hvw' => ?_
    have hothers := ih fun before k u after z results hsplit hz huz hb => by
      have hcons : (e.reduceEntries policy r ((key, v) :: before)).outcome =
          .ok ((key, v') :: results) := by
        rw [reduceEntries, Traced.bind_ok hv', Traced.bind_ok hb]
        rfl
      exact hR ((key, v) :: before) k u after z _ (congrArg _ hsplit) (List.mem_cons_of_mem _ hz)
        huz hcons
    exact hothers.bind fun vs ws _ _ hvws => .pure (.cons ⟨rfl, hvw'⟩ hvws)

end Engine

end GuardTree
