import EconomicLedger.Registry.Phases

/-!
# What loading keeps

Both loaders file the entries of all documents under their addresses, so under an address the last
entry stands alone.
-/

namespace EconomicLedger.Registry
open Model Text Fallible Intervals

/-- An entry as both loaders read it. -/
structure ConfiguredContract where
  info : ContractMeta
  abis : List (Phase × Abi)
  same : abis.map Prod.fst = info.phases
  accepted : validatePhases info.contractAddress info.phases = .ok ()
  lowered : lower info.contractAddress = info.contractAddress

def ConfiguredContract.address (c : ConfiguredContract) : String := c.info.contractAddress

/-- What the two loaders return for one entry. -/
structure Reads (dir : AbiDir) (entry : String × Json) (c : ConfiguredContract) : Prop where
  contract : loadContract entry.1 entry.2 = .ok c.info
  abis : loadContractAbis dir entry.1 entry.2 = .ok (c.address, c.abis)

/-! ## One entry -/

theorem contractAddress_lowered (contract : Json) (address : String)
    (read : contractAddress contract = .ok address) : lower address = address := by
  obtain ⟨raw, -, isLower⟩ := (bind_eq_ok_iff _ _ _).mp read
  rw [pure_eq_ok_iff] at isLower
  rw [← isLower, lower_lower]

theorem loadAbiPhase_phase (dir : AbiDir) (address role : String) (phaseDef : Json)
    (entry : Phase × Abi) (read : loadAbiPhase dir address role phaseDef = .ok entry) :
    loadPhase address phaseDef = .ok entry.1 := by
  simp only [loadAbiPhase, bind_eq_ok_iff] at read
  obtain ⟨phase, isPhase, name, -, filed⟩ := read
  cases content : dir.file name with
  | none => simp [content] at filed
  | some content' =>
      simp only [content, bind_eq_ok_iff, pure_eq_ok_iff] at filed
      obtain ⟨jsonAbi, -, rfl⟩ := filed
      exact isPhase

theorem loadPhase_of_loadAbiPhase (dir : AbiDir) (address role : String) (defs : List Json)
    (entries : List (Phase × Abi)) (read : defs.mapM (loadAbiPhase dir address role) = .ok entries) :
    defs.mapM (loadPhase address) = .ok (entries.map Prod.fst) := by
  rw [mapM_eq_ok_iff] at read ⊢
  rw [List.forall₂_map_right_iff]
  exact read.imp (loadAbiPhase_phase dir address role)

theorem exists_configured (dir : AbiDir) (stem : String) (contract : Json) (info : ContractMeta)
    (filed : String × List (Phase × Abi)) (read : loadContract stem contract = .ok info)
    (readAbis : loadContractAbis dir stem contract = .ok filed) :
    ∃ c, Reads dir (stem, contract) c ∧ c.info = info ∧ (c.address, c.abis) = filed := by
  have contractRead := read
  have abisRead := readAbis
  simp only [loadContract, bind_eq_ok_iff, pure_eq_ok_iff] at read
  simp only [loadContractAbis, bind_eq_ok_iff, pure_eq_ok_iff] at readAbis
  obtain ⟨address, isAddress, role, -, deployed, -, block, -, defs, isDefs, phases, isPhases, done, accepted,
    made⟩ := read
  obtain ⟨address', isAddress', role', -, defs', isDefs', entries, isEntries, filedUnder⟩ := readAbis
  obtain rfl : address = address' := Except.ok.inj (isAddress.symm.trans isAddress')
  obtain rfl : defs = defs' := Except.ok.inj (isDefs.symm.trans isDefs')
  have same : entries.map Prod.fst = phases :=
    Except.ok.inj ((loadPhase_of_loadAbiPhase dir address role' defs entries isEntries).symm.trans isPhases)
  have isAddressOf : info.contractAddress = address := by rw [← made]
  have isPhasesOf : info.phases = phases := by rw [← made]
  have isFiled : (info.contractAddress, entries) = filed := by rw [isAddressOf, filedUnder]
  refine ⟨⟨info, entries, isPhasesOf ▸ same, ?_, ?_⟩, ⟨contractRead, ?_⟩, rfl, isFiled⟩
  · rw [isAddressOf, isPhasesOf]
    exact accepted
  · rw [isAddressOf]
    exact contractAddress_lowered contract address isAddress
  · rw [abisRead, ← isFiled]
    rfl

/-! ## All entries -/

theorem contractsOf_of_loadFiles {α : Type} (load : String → Json → Py α) (files : List ConfigFile)
    (loaded : List α) (read : loadFiles load files = .ok loaded) :
    ∃ entries, contractsOf files = .ok entries ∧ entries.mapM (fun e => load e.1 e.2) = .ok loaded := by
  induction files generalizing loaded with
  | nil =>
      cases read
      exact ⟨[], rfl, rfl⟩
  | cons file rest ih =>
      simp only [loadFiles, flatMapM, bind_eq_ok_iff, pure_eq_ok_iff] at read
      obtain ⟨first, ⟨contracts, isContracts, isFirst⟩, others, isOthers, rfl⟩ := read
      obtain ⟨entries, isEntries, isLoaded⟩ := ih others isOthers
      refine ⟨contracts.map (fun contract => (file.stem, contract)) ++ entries, ?_, ?_⟩
      · simp only [contractsOf, flatMapM, isContracts, ok_bind]
        rw [contractsOf] at isEntries
        rw [isEntries]
        rfl
      · rw [List.mapM_append, List.mapM_map]
        have here : contracts.mapM ((fun e => load e.1 e.2) ∘ fun contract => (file.stem, contract)) =
            .ok first := isFirst
        rw [here, isLoaded]
        rfl

theorem exists_all_configured (dir : AbiDir) (entries : List (String × Json)) (infos : List ContractMeta)
    (filed : List (String × List (Phase × Abi)))
    (read : entries.mapM (fun e => loadContract e.1 e.2) = .ok infos)
    (readAbis : entries.mapM (fun e => loadContractAbis dir e.1 e.2) = .ok filed) :
    ∃ configured, List.Forall₂ (Reads dir) entries configured ∧
      configured.map ConfiguredContract.info = infos ∧
      (configured.map fun c => (c.address, c.abis)) = filed := by
  rw [mapM_eq_ok_iff] at read readAbis
  induction read generalizing filed with
  | nil =>
      cases readAbis
      exact ⟨[], .nil, rfl, rfl⟩
  | cons first rest ih =>
      obtain ⟨⟩ | ⟨firstAbis, restAbis⟩ := readAbis
      obtain ⟨c, reads, isInfo, isFiled⟩ := exists_configured dir _ _ _ _ first firstAbis
      obtain ⟨configured, each, infos, filed⟩ := ih _ restAbis
      exact ⟨c :: configured, .cons reads each, by rw [List.map_cons, isInfo, infos],
        by rw [List.map_cons, isFiled, filed]⟩

/-! ## The registries -/

def lastAt (configured : List ConfiguredContract) (address : String) : Option ConfiguredContract :=
  (configured.filter (·.address = address)).getLast?

def contractsFrom (configured : List ConfiguredContract) : ContractRegistry :=
  ⟨Dict.index ContractMeta.contractAddress (configured.map ConfiguredContract.info)⟩

def abisFrom (configured : List ConfiguredContract) : AbiRegistry :=
  ⟨Dict.ofList (configured.map fun c => (c.address, c.abis))⟩

theorem contractsFrom_get? (configured : List ConfiguredContract) (address : String) :
    (contractsFrom configured).byAddress.get? address =
      (lastAt configured address).map ConfiguredContract.info := by
  rw [contractsFrom, Dict.get?_index, List.filter_map, List.getLast?_map]
  rfl

theorem abisFrom_get? (configured : List ConfiguredContract) (address : String) :
    (abisFrom configured).phasesByAddress.get? address =
      (lastAt configured address).map ConfiguredContract.abis := by
  rw [abisFrom, Dict.get?_ofList_last, List.filter_map, List.getLast?_map, Option.map_map]
  rfl

theorem exists_loaded (dir : AbiDir) (files : List ConfigFile) (contracts : ContractRegistry)
    (abis : AbiRegistry) (loaded : ContractRegistry.load files = .ok contracts)
    (loadedAbis : AbiRegistry.loadFromConfig dir files = .ok abis) :
    ∃ entries configured, contractsOf files = .ok entries ∧ List.Forall₂ (Reads dir) entries configured ∧
      contracts = contractsFrom configured ∧ abis = abisFrom configured := by
  obtain ⟨infos, readInfos, isContracts⟩ := (bind_eq_ok_iff _ _ _).mp loaded
  obtain ⟨filed, readFiled, isAbis⟩ := (bind_eq_ok_iff _ _ _).mp loadedAbis
  obtain ⟨entries, isEntries, eachInfo⟩ := contractsOf_of_loadFiles _ files infos readInfos
  obtain ⟨entries', isEntries', eachFiled⟩ := contractsOf_of_loadFiles _ files filed readFiled
  obtain rfl : entries = entries' := Except.ok.inj (isEntries.symm.trans isEntries')
  obtain ⟨configured, each, rfl, rfl⟩ := exists_all_configured dir entries infos filed eachInfo eachFiled
  exact ⟨entries, configured, isEntries, each, ((pure_eq_ok_iff _ _).mp isContracts).symm,
    ((pure_eq_ok_iff _ _).mp isAbis).symm⟩

/-- The entry is found under its address, in any letter case: its role, and for every block of its
phases that phase and the ABI it names. -/
def Kept (contracts : ContractRegistry) (abis : AbiRegistry) (c : ConfiguredContract) : Prop :=
  ∀ address, lower address = c.address →
    contracts.role address = some c.info.role ∧
    ∀ entry ∈ c.abis, ∀ block, entry.1.covers block = true →
      contracts.getPhase address block = .ok entry.1 ∧ abis.get address block = .ok entry.2

/-- The later entry has the role of the earlier one, and its phases that cover a block, with their
ABIs. -/
def Repeats (c later : ConfiguredContract) : Prop :=
  later.info.role = c.info.role ∧
  ∀ entry ∈ c.abis, (∃ block, entry.1.covers block = true) → entry ∈ later.abis

theorem ConfiguredContract.find?_abis (c : ConfiguredContract) (entry : Phase × Abi) (block : Int) :
    c.abis.find? (·.1.covers block) = some entry ↔ entry ∈ c.abis ∧ entry.1.covers block = true := by
  constructor
  · intro found
    exact ⟨List.mem_of_find?_eq_some found, by simpa using List.find?_some found⟩
  · rintro ⟨member, covers⟩
    have one := atMostOne_of_accepted c.info.contractAddress c.info.phases c.accepted block
    rw [← c.same, AtMostOne, List.filter_map, List.length_map] at one
    exact find?_of_atMostOne one entry member covers

theorem kept_iff (configured : List ConfiguredContract) (c later : ConfiguredContract)
    (isLast : lastAt configured c.address = some later) :
    Kept (contractsFrom configured) (abisFrom configured) c ↔ Repeats c later := by
  have inContracts := contractsFrom_get? configured c.address
  have inAbis := abisFrom_get? configured c.address
  rw [isLast, Option.map_some] at inContracts inAbis
  have role (address : String) (spelled : lower address = c.address) :
      (contractsFrom configured).role address = some later.info.role := by
    rw [ContractRegistry.role, spelled, inContracts, Option.map_some]
  have phase (address : String) (spelled : lower address = c.address) (entry : Phase × Abi) (block : Int)
      (located : later.abis.find? (·.1.covers block) = some entry) :
      (contractsFrom configured).getPhase address block = .ok entry.1 := by
    apply getPhase_of_find? (spelled ▸ inContracts)
    rw [← later.same, find?_fst, located, Option.map_some]
  have abi (address : String) (spelled : lower address = c.address) (entry : Phase × Abi) (block : Int)
      (located : later.abis.find? (·.1.covers block) = some entry) :
      (abisFrom configured).get address block = .ok entry.2 :=
    get_of_find? (spelled ▸ inAbis) located
  constructor
  · intro kept
    obtain ⟨sameRole, found⟩ := kept c.address c.lowered
    refine ⟨Option.some.inj ((role c.address c.lowered).symm.trans sameRole), ?_⟩
    rintro entry member ⟨block, covers⟩
    obtain ⟨isPhase, isAbi⟩ := found entry member block covers
    cases located : later.abis.find? (·.1.covers block) with
    | none =>
        have held : (abisFrom configured).phasesByAddress.get? (lower c.address) = some later.abis := by
          rw [ConfiguredContract.address, c.lowered]
          exact inAbis
        obtain ⟨detail, raised⟩ := get_of_none held located
        rw [raised] at isAbi
        cases isAbi
    | some entry' =>
        have samePhase := (phase c.address c.lowered entry' block located).symm.trans isPhase
        have sameAbi := (abi c.address c.lowered entry' block located).symm.trans isAbi
        have same : entry' = entry := Prod.ext (Except.ok.inj samePhase) (Except.ok.inj sameAbi)
        exact same ▸ List.mem_of_find?_eq_some located
  · rintro ⟨sameRole, repeated⟩ address spelled
    refine ⟨(role address spelled).trans (congrArg some sameRole), fun entry member block covers => ?_⟩
    have located := (later.find?_abis entry block).mpr ⟨repeated entry member ⟨block, covers⟩, covers⟩
    exact ⟨phase address spelled entry block located, abi address spelled entry block located⟩

theorem exists_lastAt (configured : List ConfiguredContract) (c : ConfiguredContract)
    (member : c ∈ configured) : ∃ later, lastAt configured c.address = some later := by
  have inside : c ∈ configured.filter (·.address = c.address) :=
    List.mem_filter.mpr ⟨member, by simp⟩
  exact ⟨_, List.getLast?_eq_some_getLast (List.ne_nil_of_mem inside)⟩

/-- A configuration that loads is kept exactly where the last entry with an address repeats the
earlier ones. -/
theorem loading_keeps_iff (dir : AbiDir) (files : List ConfigFile) (contracts : ContractRegistry)
    (abis : AbiRegistry) (loaded : ContractRegistry.load files = .ok contracts)
    (loadedAbis : AbiRegistry.loadFromConfig dir files = .ok abis) :
    ∃ entries configured, contractsOf files = .ok entries ∧ List.Forall₂ (Reads dir) entries configured ∧
      ((∀ c ∈ configured, Kept contracts abis c) ↔
        ∀ c ∈ configured, ∀ later, lastAt configured c.address = some later → Repeats c later) := by
  obtain ⟨entries, configured, isEntries, each, rfl, rfl⟩ :=
    exists_loaded dir files contracts abis loaded loadedAbis
  refine ⟨entries, configured, isEntries, each, forall₂_congr fun c member => ?_⟩
  obtain ⟨later, isLast⟩ := exists_lastAt configured c member
  rw [kept_iff configured c later isLast, isLast]
  simp only [Option.some.injEq, forall_eq']

theorem lastAt_of_distinct (configured : List ConfiguredContract)
    (distinct : (configured.map ConfiguredContract.address).Nodup) (c : ConfiguredContract)
    (member : c ∈ configured) (later : ConfiguredContract)
    (isLast : lastAt configured c.address = some later) : later = c := by
  obtain ⟨inside, same⟩ := List.mem_filter.mp (List.mem_of_getLast? isLast)
  exact List.inj_on_of_nodup_map distinct inside member (by simpa using same)

theorem kept_of_distinct (configured : List ConfiguredContract)
    (distinct : (configured.map ConfiguredContract.address).Nodup) (c : ConfiguredContract)
    (member : c ∈ configured) : Kept (contractsFrom configured) (abisFrom configured) c := by
  obtain ⟨later, isLast⟩ := exists_lastAt configured c member
  rw [kept_iff configured c later isLast,
    lastAt_of_distinct configured distinct c member later isLast]
  exact ⟨rfl, fun entry inAbis _ => inAbis⟩

/-! ## Two entries -/

def poolEntry (address role : String) : Json :=
  .obj [("address", .str address), ("role", .str role),
    ("phases", .arr [.obj [("abi_version", .str "v1"), ("from_block", .num 100)]])]

def poolFiles (entries : List (String × String)) : List ConfigFile :=
  [⟨"pools", .obj [("contracts", .arr (entries.map fun e => poolEntry e.1 e.2))]⟩]

def emptyAbis : AbiDir := ⟨fun name => "abis/" ++ name, fun _ => some (.ok [])⟩

def twoPools : List ConfigFile := poolFiles [("0xAA", "community_pool"), ("0xbb", "operator_pool")]

def onePoolTwice : List ConfigFile := poolFiles [("0xAA", "community_pool"), ("0xaa", "operator_pool")]

theorem ok_of_isOk {α : Type} (x : Py α) (isOk : x.isOk = true) : ∃ a, x = .ok a := by
  cases x with
  | error exc => cases isOk
  | ok a => exact ⟨a, rfl⟩

theorem address_poolEntry {pool role : String} {c : ConfiguredContract} (address : String)
    (reads : Reads emptyAbis ("pools", poolEntry pool role) c)
    (read : (loadContractAbis emptyAbis "pools" (poolEntry pool role)).map Prod.fst = .ok address) :
    c.address = address := by
  rw [reads.abis] at read
  exact Except.ok.inj read

theorem addresses_two_pools {entries : List (String × Json)} {configured : List ConfiguredContract}
    (isEntries : contractsOf twoPools = .ok entries)
    (each : List.Forall₂ (Reads emptyAbis) entries configured) :
    configured.map ConfiguredContract.address = ["0xaa", "0xbb"] := by
  obtain rfl : entries = [("pools", poolEntry "0xAA" "community_pool"),
    ("pools", poolEntry "0xbb" "operator_pool")] := Except.ok.inj isEntries.symm
  obtain ⟨first, _, reads, others, rfl⟩ := List.forall₂_cons_left_iff.mp each
  obtain ⟨second, _, reads', none, rfl⟩ := List.forall₂_cons_left_iff.mp others
  cases none
  rw [List.map_cons, List.map_singleton, address_poolEntry "0xaa" reads (by decide +kernel),
    address_poolEntry "0xbb" reads' (by decide +kernel)]

theorem loading_keeps_two_pools : ∃ contracts abis entries configured,
    ContractRegistry.load twoPools = .ok contracts ∧
    AbiRegistry.loadFromConfig emptyAbis twoPools = .ok abis ∧
    contractsOf twoPools = .ok entries ∧
    List.Forall₂ (Reads emptyAbis) entries configured ∧
    ∀ c ∈ configured, Kept contracts abis c := by
  obtain ⟨contracts, loaded⟩ := ok_of_isOk (ContractRegistry.load twoPools) (by decide +kernel)
  obtain ⟨abis, loadedAbis⟩ := ok_of_isOk (AbiRegistry.loadFromConfig emptyAbis twoPools) (by decide +kernel)
  obtain ⟨entries, configured, isEntries, each, keeps⟩ :=
    loading_keeps_iff emptyAbis _ contracts abis loaded loadedAbis
  refine ⟨contracts, abis, entries, configured, loaded, loadedAbis, isEntries, each, keeps.mpr ?_⟩
  have distinct : (configured.map ConfiguredContract.address).Nodup := by
    rw [addresses_two_pools isEntries each]
    decide
  intro c member later isLast
  rw [lastAt_of_distinct configured distinct c member later isLast]
  exact ⟨rfl, fun entry inside _ => inside⟩

/-- Two spellings of one address load without an error, and the first entry's role is gone. -/
theorem second_entry_replaces_first : ∃ contracts abis entries configured,
    ContractRegistry.load onePoolTwice = .ok contracts ∧
    AbiRegistry.loadFromConfig emptyAbis onePoolTwice = .ok abis ∧
    contractsOf onePoolTwice = .ok entries ∧
    List.Forall₂ (Reads emptyAbis) entries configured ∧ ¬ ∀ c ∈ configured, Kept contracts abis c := by
  obtain ⟨contracts, loaded⟩ := ok_of_isOk (ContractRegistry.load onePoolTwice) (by decide +kernel)
  obtain ⟨abis, loadedAbis⟩ := ok_of_isOk (AbiRegistry.loadFromConfig emptyAbis onePoolTwice) (by decide +kernel)
  obtain ⟨entries, configured, isEntries, each, -, -⟩ :=
    exists_loaded emptyAbis _ contracts abis loaded loadedAbis
  refine ⟨contracts, abis, entries, configured, loaded, loadedAbis, isEntries, each, fun kept => ?_⟩
  have found : (ContractRegistry.load onePoolTwice).map
      (·.role "0xaa") = .ok (some "operator_pool") := by decide +kernel
  rw [loaded] at found
  have replaced : contracts.role "0xaa" = some "operator_pool" := Except.ok.inj found
  have first : entries.head? = some ("pools", poolEntry "0xAA" "community_pool") :=
    congrArg List.head? (Except.ok.inj isEntries.symm)
  cases each with
  | nil => cases first
  | cons reads rest =>
      obtain rfl := Option.some.inj first
      have info : (loadContract "pools" (poolEntry "0xAA" "community_pool")).map
          (fun info => (info.contractAddress, info.role)) = .ok ("0xaa", "community_pool") := by decide +kernel
      rw [reads.contract] at info
      obtain ⟨address, role⟩ := Prod.mk.inj (Except.ok.inj info)
      obtain ⟨isRole, -⟩ := kept _ List.mem_cons_self "0xaa" address.symm
      rw [replaced, role] at isRole
      exact absurd isRole (by decide)

end EconomicLedger.Registry
