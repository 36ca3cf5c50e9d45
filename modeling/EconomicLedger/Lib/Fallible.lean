import Mathlib.Data.List.Forall2
import Mathlib.Data.List.Perm.Basic

/-!
# Computations that may raise

What an `Except` computation returns when it does not raise, and loops over such computations.
-/

namespace EconomicLedger.Fallible
universe u
variable {ε ι : Type*} {α β : Type u}

theorem bind_eq_ok_iff (x : Except ε α) (f : α → Except ε β) (b : β) :
    x >>= f = .ok b ↔ ∃ a, x = .ok a ∧ f a = .ok b := by
  cases x <;> simp [bind, Except.bind]

theorem pure_eq_ok_iff (a b : α) : (pure a : Except ε α) = .ok b ↔ a = b := by
  simp [pure, Except.pure]

theorem ok_bind (a : α) (f : α → Except ε β) : ((Except.ok a : Except ε α) >>= f) = f a := rfl

def results (x : Except ε (List α)) : List α := x.toOption.getD []

@[simp] theorem results_ok (xs : List α) : results (.ok xs : Except ε (List α)) = xs := rfl

/-- A loop that collects the list each element yields. -/
def flatMapM (f : ι → Except ε (List β)) : List ι → Except ε (List β)
  | [] => .ok []
  | a :: rest => do
      let first ← f a
      let others ← flatMapM f rest
      return first ++ others

theorem flatMapM_eq_ok_iff (f : ι → Except ε (List β)) (l : List ι) (ys : List β) :
    flatMapM f l = .ok ys ↔
      (∀ a ∈ l, ∃ part, f a = .ok part) ∧ ys = l.flatMap fun a => results (f a) := by
  induction l generalizing ys with
  | nil => simp [flatMapM, eq_comm]
  | cons a rest ih =>
      simp only [flatMapM, bind_eq_ok_iff, pure_eq_ok_iff, ih, List.forall_mem_cons,
        List.flatMap_cons]
      constructor
      · rintro ⟨first, one, others, ⟨each, rfl⟩, rfl⟩
        exact ⟨⟨⟨first, one⟩, each⟩, by rw [one, results_ok]⟩
      · rintro ⟨⟨⟨first, one⟩, each⟩, rfl⟩
        exact ⟨first, one, _, ⟨each, rfl⟩, by rw [one, results_ok]⟩

theorem exists_flatMapM (f : ι → Except ε (List β)) (l : List ι)
    (each : ∀ a ∈ l, ∃ part, f a = .ok part) :
    flatMapM f l = .ok (l.flatMap fun a => results (f a)) :=
  (flatMapM_eq_ok_iff f l _).mpr ⟨each, rfl⟩

theorem mapM_eq_ok_iff (f : α → Except ε β) (l : List α) (ys : List β) :
    l.mapM f = .ok ys ↔ List.Forall₂ (fun a b => f a = .ok b) l ys := by
  induction l generalizing ys with
  | nil => rw [List.mapM_nil, pure_eq_ok_iff, List.forall₂_nil_left_iff, eq_comm]
  | cons a rest ih =>
      simp only [List.mapM_cons, bind_eq_ok_iff, pure_eq_ok_iff, ih]
      constructor
      · rintro ⟨b, one, bs, each, rfl⟩
        exact List.Forall₂.cons one each
      · rintro (_ | ⟨one, each⟩)
        exact ⟨_, one, _, each, rfl⟩

theorem exists_mapM (f : α → Except ε β) (R : α → β → Prop) (l : List α)
    (each : ∀ a ∈ l, ∃ b, f a = .ok b ∧ R a b) :
    ∃ ys, l.mapM f = .ok ys ∧ List.Forall₂ R l ys := by
  simp only [mapM_eq_ok_iff]
  induction l with
  | nil => exact ⟨[], .nil, .nil⟩
  | cons a rest ih =>
      obtain ⟨b, computed, related⟩ := each a List.mem_cons_self
      obtain ⟨ys, all, relatedAll⟩ := ih fun a' member => each a' (List.mem_cons_of_mem _ member)
      exact ⟨b :: ys, .cons computed all, .cons related relatedAll⟩

theorem mapM_written {γ : Type*} (write : α → γ) (read : γ → Except ε α) (l : List α)
    (each : ∀ a ∈ l, read (write a) = .ok a) : (l.map write).mapM read = .ok l := by
  induction l with
  | nil => rfl
  | cons a rest ih =>
      rw [List.map_cons, List.mapM_cons, each a List.mem_cons_self,
        ih fun b later => each b (List.mem_cons_of_mem a later)]
      rfl

theorem exists_of_forall₂_left {α β : Type*} {r : α → β → Prop} {xs : List α} {ys : List β}
    (each : List.Forall₂ r xs ys) : ∀ x ∈ xs, ∃ y ∈ ys, r x y := by
  induction each with
  | nil => simp
  | cons related _ ih =>
      intro x member
      rcases List.mem_cons.mp member with rfl | later
      · exact ⟨_, List.mem_cons_self, related⟩
      · obtain ⟨y, here, same⟩ := ih x later
        exact ⟨y, List.mem_cons_of_mem _ here, same⟩

theorem exists_of_forall₂_right {α β : Type*} {r : α → β → Prop} {xs : List α} {ys : List β}
    (each : List.Forall₂ r xs ys) : ∀ y ∈ ys, ∃ x ∈ xs, r x y :=
  exists_of_forall₂_left (r := fun y x => r x y) each.flip

theorem forall₂_iff_left {α β : Type*} {r s : α → β → Prop} {p : α → Prop} {xs : List α} {ys : List β}
    (each : List.Forall₂ r xs ys) (own : ∀ x y, r x y → (s x y ↔ p x)) :
    List.Forall₂ s xs ys ↔ ∀ x ∈ xs, p x := by
  induction each with
  | nil => simp
  | cons related _ ih => rw [List.forall₂_cons, List.forall_mem_cons, own _ _ related, ih]

theorem exists_of_mem_mapM (f : α → Except ε β) {l : List α} {ys : List β}
    (returned : l.mapM f = .ok ys) : ∀ b ∈ ys, ∃ a ∈ l, f a = .ok b :=
  exists_of_forall₂_right ((mapM_eq_ok_iff f l ys).mp returned)

theorem ok_of_mem_mapM (f : α → Except ε β) {l : List α} {ys : List β}
    (returned : l.mapM f = .ok ys) : ∀ a ∈ l, ∃ b, f a = .ok b := by
  intro a member
  obtain ⟨b, -, computed⟩ := exists_of_forall₂_left ((mapM_eq_ok_iff f l ys).mp returned) a member
  exact ⟨b, computed⟩

theorem mapM_perm (f : α → Except ε β) {l l' : List α} {ys : List β} (returned : l.mapM f = .ok ys)
    (same : l'.Perm l) : ∃ ys', l'.mapM f = .ok ys' ∧ ys'.Perm ys := by
  obtain ⟨ys', each, perm⟩ := List.perm_comp_forall₂ same ((mapM_eq_ok_iff f l ys).mp returned)
  exact ⟨ys', (mapM_eq_ok_iff f l' ys').mpr each, perm⟩

/-! ## Two computations side by side -/

/-- Both raise the same exception, or both return and the results are related. -/
def Agree {α β : Type*} (R : α → β → Prop) : Except ε α → Except ε β → Prop
  | .ok a, .ok b => R a b
  | .error e, .error e' => e = e'
  | .ok _, .error _ => False
  | .error _, .ok _ => False

theorem Agree.bind {α β α' β' : Type u} {R : α → α' → Prop} {S : β → β' → Prop}
    {x : Except ε α} {x' : Except ε α'} (same : Agree R x x') {f : α → Except ε β}
    {f' : α' → Except ε β'} (next : ∀ a a', R a a' → Agree S (f a) (f' a')) :
    Agree S (x >>= f) (x' >>= f') := by
  cases x with
  | error e =>
      cases x' with
      | error e' => exact same
      | ok a' => exact same.elim
  | ok a =>
      cases x' with
      | error e' => exact same.elim
      | ok a' => exact next a a' same

theorem Agree.refl {α : Type*} (x : Except ε α) : Agree (· = ·) x x := by
  cases x <;> rfl

theorem Agree.flip {α β : Type*} {R : α → β → Prop} {x : Except ε α} {y : Except ε β}
    (same : Agree R x y) : Agree (fun b a => R a b) y x := by
  cases x with
  | error e =>
      cases y with
      | error e' => exact Eq.symm same
      | ok b => exact same.elim
  | ok a =>
      cases y with
      | error e' => exact same.elim
      | ok b => exact same

theorem Agree.eq {α : Type*} {x x' : Except ε α} (same : Agree (· = ·) x x') : x = x' := by
  cases x with
  | error e =>
      cases x' with
      | error e' => exact congrArg Except.error same
      | ok a' => exact same.elim
  | ok a =>
      cases x' with
      | error e' => exact same.elim
      | ok a' => exact congrArg Except.ok same

end EconomicLedger.Fallible
