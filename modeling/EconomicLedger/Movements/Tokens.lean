import EconomicLedger.Movements.Provenance

/-!
# Movements of different tokens

Neither the identifier of a movement nor its bucket names the token, so a record can take the evidence of
another token's movement: in phase one under an equal identifier, in phase two when a bucket is paired
off.
-/

namespace EconomicLedger.Movements
open Model Keyed

def SameToken (m n : TokenMovement) : Prop := m.chainId = n.chainId ∧ m.tokenAddress = n.tokenAddress

/-- The inputs whose evidence is in a record are of one token, and the record names it. -/
def OneToken (inputs out : List TokenMovement) : Prop :=
  ∀ record ∈ out,
    (∀ m ∈ inputs, ∀ m' ∈ inputs, SharesEvidence record m → SharesEvidence record m' → SameToken m m') ∧
    ∀ m ∈ inputs, SharesEvidence record m → record.tokenAddress = m.tokenAddress

/-- The log movements in the index: the last with each identifier, in the place of the first. -/
def survivors (logs : List TokenMovement) : List TokenMovement :=
  (Dict.index TokenMovement.movementId logs).values

/-- One token wherever inputs share an evidence id or an identifier, or have one place on the two sides
of a bucket that is paired off. -/
structure TokensAgree (logs traces : List TokenMovement) : Prop where
  evidence : ∀ n ∈ survivors logs ++ traces, ∀ m ∈ logs ++ traces, SharesEvidence n m → SameToken n m
  identifiers : ∀ n ∈ survivors logs ++ traces, ∀ t ∈ traces, t.movementId = n.movementId → SameToken n t
  pairs : ∀ bucket, settled (survivors logs) traces bucket = true →
    ∀ pair ∈ (logSide (survivors logs) traces bucket).zip (traceSide (survivors logs) traces bucket),
      SameToken pair.1 pair.2

variable {logs traces : List TokenMovement}

/-! ## Overwritten log movements -/

theorem survivors_subset : survivors logs ⊆ logs := fun _ member => Dict.mem_of_mem_index _ _ _ member

theorem ids_survivors_nodup (logs : List TokenMovement) : (ids (survivors logs)).Nodup := by
  rw [ids, survivors, Dict.keys_index]
  exact Dict.keys_nodup _

theorem indexById_survivors (logs traces : List TokenMovement) :
    indexById (survivors logs) traces = indexById logs traces := by
  have index (movements : List TokenMovement) : indexById movements traces =
      Dict.gather TokenMovement.movementId mergeStep (Dict.index TokenMovement.movementId movements) traces :=
    indexById_eq movements traces
  rw [index, index, survivors, Dict.index_values]

theorem unifyMovements_survivors (logs traces : List TokenMovement) :
    unifyMovements (survivors logs) traces = unifyMovements logs traces := by
  simp only [unifyMovements, indexById_survivors]

theorem survivors_sources (fromLogs : ∀ m ∈ logs, m.sourcePriority = .log)
    (fromTraces : ∀ t ∈ traces, t.sourcePriority = .trace) : Sources (survivors logs) traces where
  distinct := ids_survivors_nodup logs
  fromLogs := fun m member => fromLogs m (survivors_subset member)
  fromTraces := fromTraces

/-! ## Members of one group -/

section
variable (sources : Sources logs traces)
include sources

theorem exists_group_of_ids (n t : TokenMovement) (input : n ∈ logs ++ traces) (inTraces : t ∈ traces)
    (same : t.movementId = n.movementId) : ∃ g ∈ groups logs traces, n ∈ g.members ∧ t ∈ g.members := by
  have meet (m : TokenMovement) (first : m ∈ keptFirst logs traces) (own : n = m ∨ n ∈ tracesWith traces m.movementId)
      (key : m.movementId = n.movementId) : ∃ g ∈ groups logs traces, n ∈ g.members ∧ t ∈ g.members := by
    obtain ⟨g, inGroups, part⟩ := exists_group sources m first
    refine ⟨g, inGroups, part ((mem_groupOf sources m first n).mpr own),
      part ((mem_groupOf sources m first t).mpr (Or.inr ?_))⟩
    exact List.mem_filter.mpr ⟨inTraces, by simp [same, key]⟩
  rcases List.mem_append.mp input with inLogs | inTraces'
  · exact meet n (List.mem_append_left _ inLogs) (Or.inl rfl) rfl
  · obtain ⟨m, first, key⟩ := List.mem_map.mp (mem_ids_keptFirst logs n inTraces')
    exact meet m first (Or.inr (List.mem_filter.mpr ⟨inTraces', by simp [key]⟩)) key

end

/-! ## Groups of one token -/

theorem SameToken.symm {m n : TokenMovement} (same : SameToken m n) : SameToken n m :=
  ⟨same.1.symm, same.2.symm⟩

theorem SameToken.trans {l m n : TokenMovement} (left : SameToken l m) (right : SameToken m n) :
    SameToken l n := ⟨left.1.trans right.1, left.2.trans right.2⟩

theorem record_tokenAddress (g : Group) : g.record.tokenAddress = g.kept.tokenAddress :=
  absorbAll_frame TokenMovement.tokenAddress (fun _ _ => rfl) _ _

section
variable (sources : Sources logs traces)
include sources

theorem group_sameToken
    (identifiers : ∀ n ∈ logs ++ traces, ∀ t ∈ traces, t.movementId = n.movementId → SameToken n t)
    (pairs : ∀ bucket, settled logs traces bucket = true →
      ∀ pair ∈ (logSide logs traces bucket).zip (traceSide logs traces bucket), SameToken pair.1 pair.2)
    (g : Group) (inGroups : g ∈ groups logs traces) (n : TokenMovement) (member : n ∈ g.members) :
    SameToken g.kept n := by
  have early (m : TokenMovement) (first : m ∈ keptFirst logs traces) (n : TokenMovement)
      (member : n ∈ (groupOf traces m).members) : SameToken m n := by
    rcases (mem_groupOf sources m first n).mp member with rfl | absorbed
    · exact ⟨rfl, rfl⟩
    · obtain ⟨inTraces, same⟩ := List.mem_filter.mp absorbed
      exact identifiers m (keptFirst_subset first) n inTraces (by simpa using same)
  rcases (mem_groups sources g).mp inGroups with ⟨m, first, -, rfl⟩ | ⟨bucket, even, pair, paired, rfl⟩
  · exact early m first n member
  · obtain ⟨left, right⟩ := List.of_mem_zip paired
    rw [Group.members_join] at member
    rcases List.mem_append.mp member with inside | inside
    · exact early pair.1 (mem_sides bucket pair.1 (List.mem_append_left _ left)).1 n inside
    · exact (pairs bucket even pair paired).trans
        (early pair.2 (mem_sides bucket pair.2 (List.mem_append_right _ right)).1 n inside)

theorem members_sameToken (inputs : List TokenMovement) (within : logs ++ traces ⊆ inputs)
    (evidenced : ∀ m ∈ inputs, SharesEvidence m m) (one : OneToken inputs (unifyMovements logs traces))
    (g : Group) (inGroups : g ∈ groups logs traces) (n : TokenMovement) (member : n ∈ g.members)
    (m : TokenMovement) (input : m ∈ inputs) (shares : SharesEvidence g.record m) : SameToken n m := by
  have inside := (unifyMovements_groups sources).mem_iff.mpr (List.mem_map_of_mem inGroups)
  have input' : n ∈ inputs :=
    within ((members_groups sources).subset (List.mem_flatMap.mpr ⟨g, inGroups, member⟩))
  refine (one g.record inside).1 n input' m input ?_ shares
  exact (sharesEvidence_record g n).mpr ⟨n, member, evidenced n input'⟩

end

/-! ## The law -/

section
variable (fromLogs : ∀ m ∈ logs, m.sourcePriority = .log) (fromTraces : ∀ t ∈ traces, t.sourcePriority = .trace)

theorem survivors_within : survivors logs ++ traces ⊆ logs ++ traces :=
  List.append_subset.mpr ⟨fun _ member => List.mem_append_left _ (survivors_subset member),
    List.subset_append_right _ _⟩

include fromLogs fromTraces

theorem tokensAgree_of_oneToken (evidenced : ∀ m ∈ logs ++ traces, SharesEvidence m m)
    (one : OneToken (logs ++ traces) (unifyMovements logs traces)) : TokensAgree logs traces := by
  have sources := survivors_sources fromLogs fromTraces
  rw [← unifyMovements_survivors] at one
  have members := members_sameToken sources (logs ++ traces) survivors_within evidenced one
  have together (g : Group) (inGroups : g ∈ groups (survivors logs) traces) (n t : TokenMovement)
      (left : n ∈ g.members) (right : t ∈ g.members) : SameToken n t := by
    have input := survivors_within
      ((members_groups sources).subset (List.mem_flatMap.mpr ⟨g, inGroups, right⟩))
    exact members g inGroups n left t input
      ((sharesEvidence_record g t).mpr ⟨t, right, evidenced t input⟩)
  constructor
  · intro n input m input' shares
    obtain ⟨g, inGroups, member⟩ := List.mem_flatMap.mp ((members_groups sources).mem_iff.mpr input)
    exact members g inGroups n member m input' ((sharesEvidence_record g m).mpr ⟨n, member, shares⟩)
  · intro n input t inTraces same
    obtain ⟨g, inGroups, left, right⟩ := exists_group_of_ids sources n t input inTraces same
    exact together g inGroups n t left right
  · intro bucket even pair paired
    refine together _ ((mem_groups sources _).mpr (Or.inr ⟨bucket, even, pair, paired, rfl⟩)) pair.1 pair.2 ?_ ?_
    · exact List.mem_append_left _ List.mem_cons_self
    · exact List.mem_append_right (groupOf traces pair.1).members List.mem_cons_self

theorem oneToken_of_tokensAgree (agree : TokensAgree logs traces) :
    OneToken (logs ++ traces) (unifyMovements logs traces) := by
  have sources := survivors_sources fromLogs fromTraces
  intro record inside
  rw [← unifyMovements_survivors] at inside
  obtain ⟨g, inGroups, rfl⟩ := List.mem_map.mp ((unifyMovements_groups sources).subset inside)
  have kept : ∀ m ∈ logs ++ traces, SharesEvidence g.record m → SameToken g.kept m := by
    intro m input shares
    obtain ⟨n, member, common⟩ := (sharesEvidence_record g m).mp shares
    have input' := (members_groups sources).subset (List.mem_flatMap.mpr ⟨g, inGroups, member⟩)
    exact (group_sameToken sources agree.identifiers agree.pairs g inGroups n member).trans
      (agree.evidence n input' m input common)
  refine ⟨fun m input m' input' shares shares' => ?_, fun m input shares => ?_⟩
  · exact (kept m input shares).symm.trans (kept m' input' shares')
  · rw [record_tokenAddress]
    exact (kept m input shares).2

end

/-- Unification keeps the tokens apart exactly where the inputs that it merges are of one token. -/
theorem tokens_apart_iff (fromLogs : ∀ m ∈ logs, m.sourcePriority = .log)
    (fromTraces : ∀ t ∈ traces, t.sourcePriority = .trace)
    (evidenced : ∀ m ∈ logs ++ traces, SharesEvidence m m) :
    OneToken (logs ++ traces) (unifyMovements logs traces) ↔ TokensAgree logs traces :=
  ⟨tokensAgree_of_oneToken fromLogs fromTraces evidenced, oneToken_of_tokensAgree fromLogs fromTraces⟩

/-- Inputs of one token agree. -/
theorem tokensAgree_of_sameToken (same : ∀ n ∈ logs ++ traces, ∀ m ∈ logs ++ traces, SameToken n m) :
    TokensAgree logs traces where
  evidence := fun n input m input' _ => same n (survivors_within input) m input'
  identifiers := fun n input t inTraces _ =>
    same n (survivors_within input) t (List.mem_append_right _ inTraces)
  pairs := by
    intro bucket _ pair paired
    obtain ⟨left, right⟩ := List.of_mem_zip paired
    have side (m : TokenMovement)
        (member : m ∈ logSide (survivors logs) traces bucket ++ traceSide (survivors logs) traces bucket) :
        m ∈ logs ++ traces :=
      survivors_within (keptFirst_subset (mem_sides bucket m member).1)
    exact same _ (side pair.1 (List.mem_append_left _ left)) _ (side pair.2 (List.mem_append_right _ right))

/-! ### A transfer of another token -/

def otherTokenLog : DecodedEvent := { transferLogAt 7 with contractAddress := "0x99" }

theorem build_otherTokenLog :
    buildMovementsFromTransferLogs id [otherTokenLog] = .ok [builtLog id otherTokenLog] := by
  have isTransfer : otherTokenLog.isTransfer = true := by
    simp [DecodedEvent.isTransfer, otherTokenLog, transferLogAt]
  rw [buildMovementsFromTransferLogs_eq_ok_iff]
  refine ⟨fun ev member => ?_, by simp [isTransfer]⟩
  rw [List.mem_singleton.mp (List.mem_filter.mp member).1]
  exact ⟨5, rfl⟩

theorem tokens_apart_pair :
    OneToken (transferLogs [7] ++ transferTraces [[1]])
      (unifyMovements (transferLogs [7]) (transferTraces [[1]])) := by
  refine (tokens_apart_iff (by decide +kernel) (by decide +kernel) ?_).mpr (tokensAgree_of_sameToken ?_)
  · intro m input
    rcases List.mem_cons.mp input with rfl | inTraces
    · exact ⟨computeRawLogId id (rawLogAt 7), by decide +kernel, List.mem_cons_self, List.mem_cons_self⟩
    · rw [List.mem_singleton.mp inTraces]
      exact ⟨computeRawTraceCallId id "0xab" [1], by decide +kernel, List.mem_cons_self, List.mem_cons_self⟩
  · unfold SameToken
    decide +kernel

/-- The transfer of another token takes the evidence of the call that moves as much between the same
accounts. -/
theorem other_token_absorbs :
    buildMovementsFromTransferLogs id [otherTokenLog] = .ok [builtLog id otherTokenLog] ∧
    buildMovementsFromTraceCalls id [callAt [1]] = .ok (transferTraces [[1]]) ∧
    (unifyMovements [builtLog id otherTokenLog] (transferTraces [[1]])).map
        (fun record => (record.tokenAddress, record.evidenceIds)) =
      [("0x99", [computeRawLogId id (rawLogAt 7), computeRawTraceCallId id "0xab" [1]])] ∧
    (transferTraces [[1]]).map TokenMovement.tokenAddress = ["0x51"] ∧
    ¬ OneToken ([builtLog id otherTokenLog] ++ transferTraces [[1]])
      (unifyMovements [builtLog id otherTokenLog] (transferTraces [[1]])) := by
  refine ⟨build_otherTokenLog, build_transferTraces [[1]] (by decide), by decide +kernel, by decide +kernel,
    fun one => ?_⟩
  have merged : unifyMovements [builtLog id otherTokenLog] (transferTraces [[1]]) =
      [absorb (builtLog id otherTokenLog) (builtTrace id (callAt [1]))] := by decide +kernel
  rw [merged] at one
  have named := (one _ List.mem_cons_self).2 (builtTrace id (callAt [1]))
    (List.mem_append_right _ List.mem_cons_self)
    ⟨computeRawTraceCallId id "0xab" [1], by decide +kernel, by decide +kernel, by decide +kernel⟩
  exact absurd named (by decide +kernel)

end EconomicLedger.Movements
