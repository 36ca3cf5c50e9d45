import Mathlib.Data.List.Nodup
import Mathlib.Data.List.Perm.Basic
import Mathlib.Tactic.SplitIfs

/-!
# Lists whose elements carry a key

A list made by expanding keyed elements has no duplicates when no expansion has any and every
expanded item tells the key it came from.
-/

namespace EconomicLedger.Keyed
variable {α β κ : Type*}

theorem disjoint_of_key {l : List α} (key : α → κ) (f : α → List β) (distinct : (l.map key).Nodup)
    (own : ∀ a ∈ l, ∀ a' ∈ l, ∀ b, b ∈ f a → b ∈ f a' → key a = key a') :
    l.Pairwise fun a a' => List.Disjoint (f a) (f a') := by
  refine (List.pairwise_map.mp distinct).imp_of_mem fun member member' differ b left right => ?_
  exact differ (own _ member _ member' b left right)

theorem nodup_flatMap_of_key {l : List α} (key : α → κ) (f : α → List β)
    (distinct : (l.map key).Nodup) (each : ∀ a ∈ l, (f a).Nodup)
    (own : ∀ a ∈ l, ∀ a' ∈ l, ∀ b, b ∈ f a → b ∈ f a' → key a = key a') : (l.flatMap f).Nodup :=
  List.nodup_flatMap.mpr ⟨each, disjoint_of_key key f distinct own⟩

theorem nodup_map_of_key {l : List α} (key : α → κ) (f : α → β) (distinct : (l.map key).Nodup)
    (own : ∀ a ∈ l, ∀ a' ∈ l, f a = f a' → key a = key a') : (l.map f).Nodup :=
  List.pairwise_map.mpr ((List.pairwise_map.mp distinct).imp_of_mem
    fun member member' differ same => differ (own _ member _ member' same))

theorem eq_of_nodup_flatMap {l : List α} (f : α → List β) (distinct : (l.flatMap f).Nodup) {a a' : α}
    (member : a ∈ l) (member' : a' ∈ l) {b : β} (left : b ∈ f a) (right : b ∈ f a') : a = a' := by
  have apart := (List.nodup_flatMap.mp distinct).2
  exact List.Pairwise.forall_of_forall_of_flip (R := fun a a' => b ∈ f a → b ∈ f a' → a = a')
    (fun _ _ _ _ => rfl) (apart.imp fun disjoint left right => absurd right (disjoint left))
    (apart.imp fun disjoint left right => absurd left (disjoint right)) member member' left right

theorem countP_of_nodup_flatMap [DecidableEq β] {l : List α} (f : α → List β)
    (distinct : (l.flatMap f).Nodup) {b : β} (member : b ∈ l.flatMap f) :
    l.countP (fun a => b ∈ f a) = 1 := by
  induction l with
  | nil => cases member
  | cons a rest ih =>
      rw [List.flatMap_cons] at distinct member
      obtain ⟨-, others, apart⟩ := List.nodup_append'.mp distinct
      by_cases here : b ∈ f a
      · have none : rest.countP (fun a => b ∈ f a) = 0 := by
          refine List.countP_eq_zero.mpr fun a' later inside => apart here ?_
          exact List.mem_flatMap.mpr ⟨a', later, by simpa using inside⟩
        rw [List.countP_cons_of_pos (by simpa using here), none]
      · rw [List.countP_cons_of_neg (by simpa using here)]
        exact ih others ((List.mem_append.mp member).resolve_left here)

theorem length_le_flatMap {l : List α} (f : α → List β) (each : ∀ a ∈ l, f a ≠ []) :
    l.length ≤ (l.flatMap f).length := by
  induction l with
  | nil => exact Nat.zero_le _
  | cons a rest ih =>
      have here := List.length_pos_of_ne_nil (each a List.mem_cons_self)
      have later := ih (List.forall_mem_of_forall_mem_cons each)
      rw [List.flatMap_cons, List.length_append, List.length_cons]
      omega

theorem length_flatMap_eq_iff {l : List α} (f : α → List β) (each : ∀ a ∈ l, f a ≠ []) :
    (l.flatMap f).length = l.length ↔ ∀ a ∈ l, (f a).length = 1 := by
  induction l with
  | nil => simp
  | cons a rest ih =>
      have others := List.forall_mem_of_forall_mem_cons each
      have here := List.length_pos_of_ne_nil (each a List.mem_cons_self)
      have later := length_le_flatMap f others
      rw [List.forall_mem_cons, ← ih others, List.flatMap_cons, List.length_append, List.length_cons]
      omega

theorem filter_key [DecidableEq κ] {l : List α} (key : α → κ) (distinct : (l.map key).Nodup) {a : α}
    (member : a ∈ l) : l.filter (key · = key a) = [a] := by
  induction l with
  | nil => cases member
  | cons b rest ih =>
      obtain ⟨fresh, distinct⟩ := List.nodup_cons.mp distinct
      rcases List.mem_cons.mp member with rfl | later
      · have none : rest.filter (key · = key a) = [] := by
          rw [List.filter_eq_nil_iff]
          intro b' later same
          exact fresh (List.mem_map.mpr ⟨b', later, by simpa using same⟩)
        simp [none]
      · have differ : key b ≠ key a := fun same => fresh (same ▸ List.mem_map_of_mem later)
        simp [differ, ih distinct later]

theorem filter_flatMap_key [DecidableEq κ] {l : List α} (key : α → κ) (key' : β → κ) (f : α → List β)
    (distinct : (l.map key).Nodup) (own : ∀ a ∈ l, ∀ b ∈ f a, key' b = key a) {a : α} (member : a ∈ l) :
    (l.flatMap f).filter (key' · = key a) = f a := by
  have part (b : α) (inside : b ∈ l) :
      (f b).filter (key' · = key a) = if key b = key a then f b else [] := by
    split_ifs with same
    · rw [List.filter_eq_self]
      intro c here
      simpa [same] using own b inside c here
    · rw [List.filter_eq_nil_iff]
      intro c here reached
      exact same ((own b inside c here).symm.trans (of_decide_eq_true reached))
  have parts : (l.flatMap f).filter (key' · = key a) = (l.filter (key · = key a)).flatMap f := by
    clear member distinct own
    induction l with
    | nil => rfl
    | cons b rest ih =>
        rw [List.flatMap_cons, List.filter_append, part b List.mem_cons_self,
          ih fun c inside => part c (List.mem_cons_of_mem _ inside)]
        by_cases same : key b = key a
        · simp [same]
        · simp [same]
  rw [parts, filter_key key distinct member, List.flatMap_singleton]

theorem filter_key_sublist [DecidableEq κ] [DecidableEq α] {l s : List α} (key : α → κ)
    (distinct : (l.map key).Nodup) (sub : s.Sublist l) {a : α} (member : a ∈ l) :
    s.filter (key · = key a) = if a ∈ s then [a] else [] := by
  split_ifs with inside
  · exact filter_key key (distinct.sublist (sub.map key)) inside
  · rw [List.filter_eq_nil_iff]
    intro b here same
    have equal : b = a := List.inj_on_of_nodup_map distinct (sub.subset here) member (by simpa using same)
    exact inside (equal ▸ here)

/-! ## Partition by key -/

theorem perm_flatMap_filter [DecidableEq κ] (key : α → κ) (keys : List κ) (distinct : keys.Nodup)
    (l : List α) (covered : ∀ a ∈ l, key a ∈ keys) :
    (keys.flatMap fun k => l.filter (key · = k)).Perm l := by
  induction keys generalizing l with
  | nil =>
      cases l with
      | nil => exact List.Perm.refl _
      | cons a rest => exact absurd (covered a List.mem_cons_self) List.not_mem_nil
  | cons k keys ih =>
      obtain ⟨fresh, distinct⟩ := List.nodup_cons.mp distinct
      let others := l.filter fun a => !decide (key a = k)
      have othersCovered : ∀ a ∈ others, key a ∈ keys := by
        intro a member
        obtain ⟨inside, differ⟩ := List.mem_filter.mp member
        rcases List.mem_cons.mp (covered a inside) with same | later
        · simp [same] at differ
        · exact later
      have same : (keys.flatMap fun j => l.filter (key · = j)) =
          keys.flatMap fun j => others.filter (key · = j) := by
        apply List.flatMap_congr
        intro j member
        have differ : j ≠ k := fun same => fresh (same ▸ member)
        rw [List.filter_filter]
        apply List.filter_congr
        intro a _
        by_cases here : key a = j <;> simp [here, differ]
      rw [List.flatMap_cons, same]
      exact ((ih distinct others othersCovered).append_left _).trans (List.filter_append_perm _ l)

/-! ## First occurrences -/

/-- The first element under each key. -/
def firstByKey [DecidableEq κ] (key : α → κ) : List α → List α
  | [] => []
  | a :: rest => a :: (firstByKey key rest).filter (key · ≠ key a)

variable [DecidableEq κ] (key : α → κ)

theorem firstByKey_sublist (l : List α) : (firstByKey key l).Sublist l := by
  induction l with
  | nil => exact List.Sublist.slnil
  | cons a rest ih => exact (List.filter_sublist.trans ih).cons_cons a

theorem firstByKey_nodup (l : List α) : ((firstByKey key l).map key).Nodup := by
  induction l with
  | nil => exact List.nodup_nil
  | cons a rest ih =>
      rw [firstByKey, List.map_cons, List.nodup_cons]
      refine ⟨fun member => ?_, ih.sublist (List.filter_sublist.map key)⟩
      obtain ⟨b, inside, same⟩ := List.mem_map.mp member
      simpa [same] using (List.mem_filter.mp inside).2

theorem mem_keys_firstByKey (l : List α) (k : κ) :
    k ∈ (firstByKey key l).map key ↔ k ∈ l.map key := by
  induction l with
  | nil => exact Iff.rfl
  | cons a rest ih =>
      simp only [firstByKey, List.map_cons, List.mem_cons]
      by_cases same : k = key a
      · simp [same]
      · simp only [same, false_or, ← ih]
        simp only [List.mem_map, List.mem_filter, decide_eq_true_eq]
        constructor
        · rintro ⟨b, ⟨inside, -⟩, rfl⟩
          exact ⟨b, inside, rfl⟩
        · rintro ⟨b, inside, rfl⟩
          exact ⟨b, ⟨inside, same⟩, rfl⟩

theorem firstByKey_of_nodup (l : List α) (distinct : (l.map key).Nodup) : firstByKey key l = l := by
  induction l with
  | nil => rfl
  | cons a rest ih =>
      obtain ⟨fresh, distinct⟩ := List.nodup_cons.mp distinct
      rw [firstByKey, ih distinct, List.filter_eq_self.mpr]
      intro b member
      simpa using fun same => fresh (List.mem_map.mpr ⟨b, member, same⟩)

theorem firstByKey_length_eq_iff (l : List α) :
    (firstByKey key l).length = l.length ↔ (l.map key).Nodup := by
  constructor
  · intro same
    have whole := (firstByKey_sublist key l).eq_of_length same
    exact whole ▸ firstByKey_nodup key l
  · intro distinct
    rw [firstByKey_of_nodup key l distinct]

theorem filter_of_mem_firstByKey (l : List α) (a : α) (member : a ∈ firstByKey key l) :
    ∃ rest, l.filter (key · = key a) = a :: rest := by
  induction l with
  | nil => cases member
  | cons b l ih =>
      rcases List.mem_cons.mp member with rfl | later
      · exact ⟨_, List.filter_cons_of_pos (by simp)⟩
      · obtain ⟨inside, differ⟩ := List.mem_filter.mp later
        have differ : key b ≠ key a := fun same => by simp [same] at differ
        rw [List.filter_cons_of_neg (by simpa using differ)]
        exact ih inside

theorem firstByKey_map {γ : Type*} (f : γ → α) (l : List γ) :
    firstByKey key (l.map f) = (firstByKey (fun c => key (f c)) l).map f := by
  induction l with
  | nil => rfl
  | cons a rest ih =>
      rw [List.map_cons, firstByKey, ih, firstByKey, List.map_cons, List.filter_map]
      rfl

theorem firstByKey_congr {κ' : Type*} [DecidableEq κ'] (key' : α → κ') (l : List α)
    (agree : ∀ a ∈ l, ∀ b ∈ l, key a = key b ↔ key' a = key' b) : firstByKey key l = firstByKey key' l := by
  induction l with
  | nil => rfl
  | cons a rest ih =>
      rw [firstByKey, firstByKey, ← ih fun b inside c inside' =>
        agree b (List.mem_cons_of_mem _ inside) c (List.mem_cons_of_mem _ inside')]
      congr 1
      apply List.filter_congr
      intro b member
      have inside := (firstByKey_sublist key rest).subset member
      have same := agree b (List.mem_cons_of_mem _ inside) a List.mem_cons_self
      exact decide_eq_decide.mpr (not_congr same)

theorem mem_firstByKey_id [DecidableEq α] (l : List α) (a : α) : a ∈ firstByKey id l ↔ a ∈ l := by
  simpa using mem_keys_firstByKey id l a

theorem firstByKey_filter (p : κ → Bool) (l : List α) :
    firstByKey key (l.filter fun a => p (key a)) = (firstByKey key l).filter fun a => p (key a) := by
  induction l with
  | nil => rfl
  | cons a rest ih =>
      cases kept : p (key a) with
      | true =>
          rw [List.filter_cons_of_pos (by simpa using kept), firstByKey, firstByKey, ih,
            List.filter_cons_of_pos (by simpa using kept), List.filter_filter, List.filter_filter]
          congr 1
          exact List.filter_congr fun b _ => Bool.and_comm _ _
      | false =>
          rw [List.filter_cons_of_neg (by simp [kept]), firstByKey, ih,
            List.filter_cons_of_neg (by simp [kept]), List.filter_filter]
          apply List.filter_congr
          intro b _
          by_cases same : key b = key a
          · simp [same, kept]
          · simp [same]

theorem firstByKey_concat (l : List α) (a : α) :
    firstByKey key (l ++ [a]) =
      if key a ∈ l.map key then firstByKey key l else firstByKey key l ++ [a] := by
  induction l with
  | nil => rfl
  | cons b rest ih =>
      rw [List.cons_append, firstByKey, ih, firstByKey, List.map_cons]
      by_cases here : key a = key b
      · by_cases later : key b ∈ rest.map key <;> simp [here, later]
      · by_cases later : key a ∈ rest.map key
        · rw [if_pos later, if_pos (List.mem_cons_of_mem _ later)]
        · have fresh : key a ∉ key b :: rest.map key := by
            rw [List.mem_cons, not_or]
            exact ⟨here, later⟩
          rw [if_neg later, if_neg fresh, List.filter_append, List.filter_cons_of_pos (by simpa using here)]
          rfl

/-- The elements of `l'` under keys that `l` does not have. -/
def unseen (l l' : List α) : List α := l'.filter fun a => key a ∉ l.map key

theorem mem_unseen (l l' : List α) (a : α) : a ∈ unseen key l l' ↔ a ∈ l' ∧ key a ∉ l.map key := by
  rw [unseen, List.mem_filter, decide_eq_true_eq]

theorem firstByKey_append (l l' : List α) :
    firstByKey key (l ++ l') = firstByKey key l ++ firstByKey key (unseen key l l') := by
  induction l with
  | nil => simp [firstByKey, unseen]
  | cons a rest ih =>
      have later : unseen key (a :: rest) l' =
          (unseen key rest l').filter fun b => decide (key b ≠ key a) := by
        rw [unseen, unseen, List.filter_filter]
        apply List.filter_congr
        intro b _
        simp only [List.map_cons, List.mem_cons, not_or, Bool.decide_and]
      rw [List.cons_append, firstByKey, ih, firstByKey, List.filter_append, later,
        firstByKey_filter key fun k => decide (k ≠ key a), List.cons_append]

omit [DecidableEq κ] in
theorem flatMap_where (p : α → Bool) (f : α → List β) (l : List α) :
    (l.filter p).flatMap f = l.flatMap fun a => if p a then f a else [] := by
  induction l with
  | nil => rfl
  | cons a rest ih =>
      rw [List.filter_cons, List.flatMap_cons, ← ih]
      cases p a with
      | true => rfl
      | false => rfl

/-- Blocks of elements under the keys of their source: the first block of every source is kept whole. -/
theorem firstByKey_flatMap {κ' : Type*} [DecidableEq κ'] (key : β → κ) (key' : α → κ') (f : α → List β)
    (l : List α) (distinct : ∀ a ∈ l, ((f a).map key).Nodup)
    (own : ∀ a ∈ l, ∀ a' ∈ l, key' a = key' a' → (f a).map key = (f a').map key)
    (apart : ∀ a ∈ l, ∀ a' ∈ l, key' a ≠ key' a' → List.Disjoint ((f a).map key) ((f a').map key)) :
    firstByKey key (l.flatMap f) = (firstByKey key' l).flatMap f := by
  induction l with
  | nil => rfl
  | cons a rest ih =>
      have before := ih (fun b inside => distinct b (List.mem_cons_of_mem a inside))
        (fun b inside c inside' => own b (List.mem_cons_of_mem a inside) c (List.mem_cons_of_mem a inside'))
        (fun b inside c inside' => apart b (List.mem_cons_of_mem a inside) c (List.mem_cons_of_mem a inside'))
      have later : firstByKey key (unseen key (f a) (rest.flatMap f)) =
          ((firstByKey key' rest).filter (key' · ≠ key' a)).flatMap f := by
        rw [unseen, firstByKey_filter key fun k => decide (k ∉ (f a).map key), before,
          List.filter_flatMap, flatMap_where]
        apply List.flatMap_congr
        intro b inside
        have member := List.mem_cons_of_mem a ((firstByKey_sublist key' rest).subset inside)
        by_cases same : key' b = key' a
        · rw [if_neg (by simp [same]), List.filter_eq_nil_iff]
          intro c within
          have here : key c ∈ (f a).map key :=
            own b member a List.mem_cons_self same ▸ List.mem_map_of_mem within
          simpa using here
        · rw [if_pos (by simp [same]), List.filter_eq_self]
          intro c within
          have away := apart b member a List.mem_cons_self same (List.mem_map_of_mem within)
          exact decide_eq_true away
      rw [List.flatMap_cons, firstByKey_append, later, firstByKey_of_nodup key _ (distinct a List.mem_cons_self)]
      rfl

/-! ## Calls that touch one key -/

/-- Calls that change what is read under their own key only leave under each key what the calls on that
key leave there. -/
theorem foldl_local {σ γ : Type*} (read : σ → κ → γ) (step : σ → β → σ) (key : β → κ)
    (f : γ → β → γ) (own : ∀ s b k, read (step s b) k = if key b = k then f (read s k) b else read s k)
    (s : σ) (calls : List β) (k : κ) :
    read (calls.foldl step s) k = (calls.filter (key · = k)).foldl f (read s k) := by
  induction calls generalizing s with
  | nil => rfl
  | cons b rest ih =>
      rw [List.foldl_cons, ih, own, List.filter_cons]
      by_cases same : key b = k <;> simp [same]

end EconomicLedger.Keyed
