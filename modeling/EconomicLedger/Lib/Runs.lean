import Mathlib.Data.List.Destutter
import Mathlib.Data.List.SplitBy

/-!
# Runs

A run of a list is a longest part of it whose elements have one key. Keys are listed once for each run, so
leaving elements out lists the same keys exactly when every run keeps an element.
-/

namespace EconomicLedger.Runs

variable {α β : Type*}

/-! ## Parts of one key -/

/-- Runs of one key each, no two in a row of the same. -/
structure AreRuns (key : β → α) (parts : List (List β)) : Prop where
  nonempty : ∀ run ∈ parts, run ≠ []
  oneKey : ∀ run ∈ parts, ∀ x ∈ run, ∀ y ∈ run, key x = key y
  apart : parts.IsChain fun run run' => ∃ (some : run ≠ []) (some' : run' ≠ []),
    key (run.getLast some) ≠ key (run'.head some')

section
variable (key : β → α)

theorem AreRuns.tail {run : List β} {parts : List (List β)} (areRuns : AreRuns key (run :: parts)) :
    AreRuns key parts where
  nonempty := fun run' member => areRuns.nonempty run' (List.mem_cons_of_mem _ member)
  oneKey := fun run' member => areRuns.oneKey run' (List.mem_cons_of_mem _ member)
  apart := areRuns.apart.tail

theorem head_apart {run : List β} {parts : List (List β)} (areRuns : AreRuns key (run :: parts))
    (q : β → Bool) (vouched : ∀ run' ∈ parts, ∃ x ∈ run', q x = true) {k : α} (own : ∀ x ∈ run, key x = k) :
    ((parts.flatten.filter q).map key).head? ≠ some k := by
  cases parts with
  | nil => simp
  | cons run' parts =>
      obtain ⟨some, some', other⟩ := (List.isChain_cons_cons.mp areRuns.apart).1
      obtain ⟨y, inRun, chosen⟩ := vouched run' List.mem_cons_self
      cases first : run'.filter q with
      | nil => exact absurd chosen (List.filter_eq_nil_iff.mp first y inRun)
      | cons z zs =>
          rw [List.flatten_cons, List.filter_append, first, List.cons_append, List.map_cons, List.head?_cons]
          intro same
          have member : z ∈ run' := List.mem_of_mem_filter (first ▸ List.mem_cons_self)
          have oneKey := areRuns.oneKey run' (List.mem_cons_of_mem _ List.mem_cons_self) z member _
            (List.head_mem some')
          exact other ((own _ (List.getLast_mem some)).trans ((Option.some.inj same).symm.trans oneKey))

theorem map_key_filter {run : List β} {k : α} (own : ∀ x ∈ run, key x = k) (q : β → Bool) :
    (run.filter q).map key = List.replicate (run.filter q).length k := by
  rw [List.eq_replicate_iff]
  refine ⟨List.length_map _, ?_⟩
  rw [List.forall_mem_map]
  exact fun x member => own x (List.mem_of_mem_filter member)

end

variable [DecidableEq α]

/-! ## Keys without repeats in a row -/

def addKey (keys : List α) (k : α) : List α := if keys.getLast? = some k then keys else keys ++ [k]

theorem foldl_addKey_concat (keys : List α) (last : α) (l : List α) :
    l.foldl addKey (keys ++ [last]) = keys ++ l.destutter' (· ≠ ·) last := by
  induction l generalizing keys last with
  | nil => rfl
  | cons k l ih =>
      rw [List.foldl_cons, addKey, List.getLast?_concat]
      by_cases same : last = k
      · rw [if_pos (congrArg some same), List.destutter'_cons_neg _ (not_not.mpr same), ih]
      · rw [if_neg (mt Option.some.inj same), List.destutter'_cons_pos _ same, ih, List.append_assoc,
          List.singleton_append]

/-- The keys, added one after the other. -/
theorem destutter_eq_foldl (l : List α) : l.destutter (· ≠ ·) = l.foldl addKey [] := by
  cases l with
  | nil => rfl
  | cons k l => exact (foldl_addKey_concat [] k l).symm

theorem destutter_append (l m : List α) :
    (l ++ m).destutter (· ≠ ·) = m.foldl addKey (l.destutter (· ≠ ·)) := by
  rw [destutter_eq_foldl, destutter_eq_foldl, List.foldl_append]

theorem length_le_foldl_addKey (keys l : List α) : keys.length ≤ (l.foldl addKey keys).length := by
  induction l generalizing keys with
  | nil => exact le_rfl
  | cons k l ih =>
      refine le_trans ?_ (ih _)
      rw [addKey]
      split
      · exact le_rfl
      · simp

theorem foldl_addKey_eq_self_iff (keys l : List α) :
    l.foldl addKey keys = keys ↔ ∀ k ∈ l, keys.getLast? = some k := by
  induction l with
  | nil => simp
  | cons k l ih =>
      rw [List.foldl_cons, List.forall_mem_cons, addKey]
      by_cases last : keys.getLast? = some k
      · rw [if_pos last, ih, and_iff_right last]
      · rw [if_neg last]
        refine iff_of_false (fun same => ?_) fun both => last both.1
        have longer := length_le_foldl_addKey (keys ++ [k]) l
        rw [same, List.length_append, List.length_singleton] at longer
        omega

theorem getLast?_foldl_addKey (keys l : List α) :
    (l.foldl addKey keys).getLast? = (keys ++ l).getLast? := by
  induction l generalizing keys with
  | nil => rw [List.append_nil]; rfl
  | cons k l ih =>
      have here : (addKey keys k).getLast? = some k := by
        rw [addKey]
        split
        next last => exact last
        next => exact List.getLast?_concat
      rw [List.foldl_cons, ih]
      cases l with
      | nil => rw [List.append_nil, here, List.getLast?_concat]
      | cons b l =>
          rw [List.getLast?_append_of_ne_nil _ (List.cons_ne_nil b l),
            List.getLast?_append_of_ne_nil _ (List.cons_ne_nil k _), List.getLast?_cons_cons]

theorem getLast?_destutter (l : List α) : (l.destutter (· ≠ ·)).getLast? = l.getLast? := by
  rw [destutter_eq_foldl, getLast?_foldl_addKey, List.nil_append]

/-- More keys are not listed exactly when all of them are the last one. -/
theorem destutter_append_eq_iff (l m : List α) :
    (l ++ m).destutter (· ≠ ·) = l.destutter (· ≠ ·) ↔ ∀ k ∈ m, l.getLast? = some k := by
  rw [destutter_append, foldl_addKey_eq_self_iff, getLast?_destutter]

theorem destutter_replicate_append (k : α) {n : Nat} (positive : 0 < n) (m : List α) :
    (List.replicate n k ++ m).destutter (· ≠ ·) = (k :: m).destutter (· ≠ ·) := by
  obtain ⟨n, rfl⟩ := Nat.exists_eq_succ_of_ne_zero positive.ne'
  have repeats : (k :: List.replicate n k).destutter (· ≠ ·) = [k].destutter (· ≠ ·) :=
    (destutter_append_eq_iff [k] (List.replicate n k)).mpr fun b member => by
      rw [List.eq_of_mem_replicate member]
      rfl
  rw [List.replicate_succ, destutter_append, repeats]
  exact (destutter_append [k] m).symm

theorem destutter_cons_apart (k : α) (m : List α) (apart : m.head? ≠ some k) :
    (k :: m).destutter (· ≠ ·) = k :: m.destutter (· ≠ ·) := by
  cases m with
  | nil => rfl
  | cons b m =>
      have other : k ≠ b := fun same => apart (congrArg some same.symm)
      rw [List.destutter_cons', List.destutter'_cons_pos _ other, List.destutter_cons']

theorem length_destutter_cons_le (k : α) (m : List α) :
    ((k :: m).destutter (· ≠ ·)).length ≤ 1 + (m.destutter (· ≠ ·)).length := by
  by_cases head : m.head? = some k
  · cases m with
    | nil => exact le_rfl
    | cons b m =>
        obtain rfl := Option.some.inj head
        rw [List.destutter_cons', List.destutter'_cons_neg _ (not_not.mpr rfl), List.destutter_cons']
        exact Nat.le_add_left _ _
  · rw [destutter_cons_apart k m head, List.length_cons, Nat.add_comm]

/-! ## Runs -/

def runs (key : β → α) (l : List β) : List (List β) := l.splitBy fun x y => key x = key y

variable (key : β → α) (p : β → Bool)

theorem areRuns_runs (l : List β) : AreRuns key (runs key l) where
  nonempty := fun _ member => List.ne_nil_of_mem_splitBy member
  oneKey := by
    intro run member x here y there
    have chain : run.IsChain fun x y => key x = key y := by
      simpa using List.isChain_of_mem_splitBy member
    have trans : IsTrans β fun x y => key x = key y := ⟨fun _ _ _ => Eq.trans⟩
    have symm : Std.Symm fun x y : β => key x = key y := ⟨fun _ _ => Eq.symm⟩
    by_cases same : x = y
    · rw [same]
    · exact (List.isChain_iff_pairwise.mp chain).forall here there same
  apart := by
    refine (List.isChain_getLast_head_splitBy (fun x y => decide (key x = key y)) l).imp ?_
    rintro run run' ⟨some, some', other⟩
    exact ⟨some, some', of_decide_eq_false other⟩

/-- One key for each run with an element that is kept, if each has one. -/
theorem destutter_of_vouched {parts : List (List β)} (areRuns : AreRuns key parts)
    (q : β → Bool) (vouched : ∀ run ∈ parts, ∃ x ∈ run, q x = true) :
    ((parts.flatten.filter q).map key).destutter (· ≠ ·) =
      parts.filterMap fun run => run.head?.map key := by
  induction parts with
  | nil => rfl
  | cons run parts ih =>
      obtain ⟨own', others⟩ := List.forall_mem_cons.mp vouched
      obtain ⟨x, inRun, chosen⟩ := own'
      have own : ∀ y ∈ run, key y = key x := fun y there =>
        areRuns.oneKey run List.mem_cons_self y there x inRun
      have positive : 0 < (run.filter q).length :=
        List.length_pos_of_mem (List.mem_filter.mpr ⟨inRun, chosen⟩)
      have first : run.head?.map key = some (key x) := by
        cases run with
        | nil => cases inRun
        | cons y ys => exact congrArg some (own y List.mem_cons_self)
      rw [List.flatten_cons, List.filter_append, List.map_append, map_key_filter key own,
        destutter_replicate_append _ positive,
        destutter_cons_apart _ _ (head_apart key areRuns q others own), ih (areRuns.tail key) others]
      simp only [List.filterMap_cons, first]

theorem length_destutter_le {parts : List (List β)} (areRuns : AreRuns key parts) :
    ((parts.flatten.filter p).map key |>.destutter (· ≠ ·)).length ≤
      (parts.filter fun run => run.any p).length := by
  induction parts with
  | nil => exact le_rfl
  | cons run parts ih =>
      have others := ih (areRuns.tail key)
      rw [List.flatten_cons, List.filter_append, List.map_append]
      by_cases some : run.any p = true
      · obtain ⟨x, inRun, chosen⟩ := List.any_eq_true.mp some
        have own : ∀ y ∈ run, key y = key x := fun y there =>
          areRuns.oneKey run List.mem_cons_self y there x inRun
        have positive : 0 < (run.filter p).length :=
          List.length_pos_of_mem (List.mem_filter.mpr ⟨inRun, chosen⟩)
        rw [map_key_filter key own, destutter_replicate_append _ positive,
          List.filter_cons_of_pos (p := fun part : List β => part.any p) some, List.length_cons]
        have one := length_destutter_cons_le (key x) ((parts.flatten.filter p).map key)
        omega
      · have none : run.filter p = [] := by simpa using some
        rw [none, List.map_nil, List.nil_append,
          List.filter_cons_of_neg (p := fun part : List β => part.any p) some]
        exact others

/-- Leaving elements out lists the same keys exactly when every run keeps one. -/
theorem destutter_filter_eq_iff (l : List β) :
    ((l.filter p).map key).destutter (· ≠ ·) = (l.map key).destutter (· ≠ ·) ↔
      ∀ run ∈ runs key l, ∃ x ∈ run, p x = true := by
  have areRuns := areRuns_runs key l
  have whole : (runs key l).flatten = l := List.flatten_splitBy _ _
  have all : (l.map key).destutter (· ≠ ·) = (runs key l).filterMap fun run => run.head?.map key := by
    have each := destutter_of_vouched key areRuns (fun _ => true) fun run member =>
      ⟨_, List.head_mem (areRuns.nonempty run member), rfl⟩
    rwa [List.filter_true, whole] at each
  constructor
  · intro same
    have heads : ((l.map key).destutter (· ≠ ·)).length = (runs key l).length := by
      rw [all, List.length_filterMap_eq_countP, List.countP_eq_length]
      intro run member
      cases run with
      | nil => exact absurd rfl (areRuns.nonempty [] member)
      | cons x xs => rfl
    have most := length_destutter_le key p areRuns
    rw [whole, same, heads] at most
    have every := List.length_filter_eq_length_iff.mp (le_antisymm (List.length_filter_le _ _) most)
    exact fun run member => List.any_eq_true.mp (every run member)
  · intro vouched
    have kept := destutter_of_vouched key areRuns p vouched
    rwa [whole, ← all] at kept

end EconomicLedger.Runs
