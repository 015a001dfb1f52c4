import FaultForge.Master.Sessions

/-!
# What an accepted definition guarantees

An experiment id has one `:`-free spelling for each sequence number, and an instance id spells its experiment, host and
action (`instanceId_inj`). A definition that passes VALIDATE on facts gathered from the registry has, in every action,
at least one host, no host twice, and only hosts that parse to themselves; so the record minted from it has at least
one instance, and no two of one id (`mintExperiment_ids`).
-/
namespace FaultForge.Master

open Text

/-! ## Ids can be read back -/

theorem digit_ne {n : Nat} {c : Char} (hc : c.isDigit = false) : c ∉ (toString n).toList := by
  intro h
  rw [isDigit_of_mem_toString h] at hc
  cases hc

theorem colon_not_mem_int (n : Int) : ':' ∉ (toString n).toList := by
  cases n with
  | ofNat n => exact digit_ne (n := n) (by decide)
  | negSucc n =>
    have h : (toString (Int.negSucc n)).toList = '-' :: (toString (n + 1)).toList := by
      simp [toString, Int.repr]
    rw [h]
    simpa using digit_ne (n := n + 1) (c := ':') (by decide)

theorem mint_toList (nowMs : Int) (seq : Nat) :
    (ExperimentId.mint nowMs seq).toList = ("exp-" ++ toString nowMs).toList ++ '-' :: (toString seq).toList := by
  simp [ExperimentId.mint, String.toList_append, toString]

theorem colon_not_mem_mint (nowMs : Int) (seq : Nat) : ':' ∉ (ExperimentId.mint nowMs seq).toList := by
  rw [mint_toList, String.toList_append]
  simp only [List.mem_append, List.mem_cons, not_or]
  exact ⟨⟨by decide, colon_not_mem_int nowMs⟩, by decide, digit_ne (by decide)⟩

/-- The sequence number stands in the id. -/
theorem mint_seq_inj {nowMs nowMs' : Int} {seq seq' : Nat}
    (h : ExperimentId.mint nowMs seq = ExperimentId.mint nowMs' seq') : seq = seq' := by
  have hl := congrArg String.toList h
  rw [mint_toList, mint_toList] at hl
  exact toString_nat_inj (sep_inj_last (digit_ne (by decide)) (digit_ne (by decide)) hl).2

theorem instanceId_toList (experiment : ExperimentId) (hostname : Hostname) (actionIndex : Nat) :
    (instanceId experiment hostname actionIndex).toList =
      experiment.toList ++ ':' :: (hostname.val.toList ++ ':' :: (toString actionIndex).toList) := by
  simp [instanceId, String.toList_append, toString]

/-- An instance id names its experiment, its host and its action. -/
theorem instanceId_inj {x y : ExperimentId} {h k : Hostname} {i j : Nat} (hx : ':' ∉ x.toList) (hy : ':' ∉ y.toList)
    (he : instanceId x h i = instanceId y k j) : x = y ∧ h = k ∧ i = j := by
  have hl := congrArg String.toList he
  rw [instanceId_toList, instanceId_toList] at hl
  obtain ⟨h1, h2⟩ := sep_inj hx hy hl
  obtain ⟨h3, h4⟩ := sep_inj_last (digit_ne (by decide)) (digit_ne (by decide)) h2
  refine ⟨String.toList_inj.1 h1, ?_, toString_nat_inj h4⟩
  cases h
  cases k
  simpa using String.toList_inj.1 h3

/-! ## Hostnames -/

theorem idSafe_not_whitespace {c : Char} (h : (isAsciiAlphanumeric c || c == '.' || c == '_' || c == '-') = true) :
    isWhitespace c = false := by
  simp [isAsciiAlphanumeric, Char.isDigit, isWhitespace, Char.le_def, UInt32.le_iff_toNat_le, ← Char.toNat_inj] at *
  omega

/-- A hostname inside the id charset is not changed by parsing. -/
theorem parse_val {s : String} {h : Hostname} (hs : hostnameIdSafe s = true) (hp : Hostname.parse s = .ok h) :
    h.val = s := by
  have hsafe : ∀ c ∈ s.toList, isWhitespace c = false := by
    simp only [hostnameIdSafe, Bool.and_eq_true, List.all_eq_true] at hs
    exact fun c hc => idSafe_not_whitespace (hs.2 c hc)
  have hval := Hostname.parse_ok_iff.1 hp
  rw [trim_eq_self hsafe] at hval
  exact String.toList_inj.1 hval

/-- Every hostname is inside the id charset. -/
theorem idSafe_val (hostname : Hostname) : hostnameIdSafe hostname.val = true := by
  have hname : Rfc1123 hostname.val.toList := isHostname_iff.1 hostname.valid
  simp only [hostnameIdSafe, Bool.and_eq_true, bne_iff_ne, List.all_eq_true]
  refine ⟨fun he => ?_, fun c hc => ?_⟩
  · have hpos := hname.bytes.1
    rw [he] at hpos
    exact absurd hpos (by decide)
  · rcases hname.chars c hc with hl | rfl
    · have hlabel := isLabelChar_iff.2 hl
      rw [Bool.or_eq_true] at hlabel
      rcases hlabel with ha | hd
      · simp [ha]
      · simp [hd]
    · decide

/-- No hostname holds the separator of instance ids. -/
theorem colon_not_mem_val (hostname : Hostname) : ':' ∉ hostname.val.toList := by
  intro hc
  have h := (isHostname_iff.1 hostname.valid).chars ':' hc
  revert h
  unfold IsLabelChar
  decide

/-- `parse` accepts exactly the names of the grammar between white space and gives back the name alone, which parses to
itself and can stand in an instance id. -/
theorem hostname_grammar (s : String) :
    ((∃ hostname, Hostname.parse s = .ok hostname) ↔ ∃ t, Trimmed s.toList t ∧ Rfc1123 t) ∧
      ∀ hostname, Hostname.parse s = .ok hostname →
        Trimmed s.toList hostname.val.toList ∧ Hostname.parse hostname.val = .ok hostname ∧
          hostnameIdSafe hostname.val = true ∧ ':' ∉ hostname.val.toList := by
  have htrim : ∀ hostname, Hostname.parse s = .ok hostname → Trimmed s.toList hostname.val.toList :=
    fun hostname hp => trim_eq_iff.1 (Hostname.parse_ok_iff.1 hp).symm
  refine ⟨⟨?_, ?_⟩, fun hostname hp => ⟨htrim hostname hp, hostname.parse_val, ?_, ?_⟩⟩
  · rintro ⟨hostname, hp⟩
    exact ⟨_, htrim hostname hp, isHostname_iff.1 hostname.valid⟩
  · rintro ⟨t, ht, hname⟩
    have hvalid : isHostname (String.ofList t).toList = true := by
      rw [String.toList_ofList]
      exact isHostname_iff.2 hname
    refine ⟨⟨String.ofList t, hvalid⟩, Hostname.parse_ok_iff.2 ?_⟩
    rw [String.toList_ofList, trim_eq_iff.2 ht]
  · exact idSafe_val hostname
  · exact colon_not_mem_val hostname

/-! ## VALIDATE -/

theorem validateHost_nil {facts : AList fun _ : String => HostFacts} {action : Nat} {host : String}
    (h : validateHost facts action host = []) :
    hostnameIdSafe host = true ∧ ∃ f, facts.lookup host = some f ∧ f.registered = true := by
  unfold validateHost at h
  by_cases hs : hostnameIdSafe host = true
  · refine ⟨hs, ?_⟩
    simp only [hs, Bool.not_true, Bool.false_eq_true, if_false] at h
    cases hl : facts.lookup host with
    | none => simp [hl] at h
    | some f =>
      cases hr : f.registered with
      | true => exact ⟨f, rfl, hr⟩
      | false => simp [hl, hr] at h
  · simp [hs] at h

theorem validateHosts_nil {facts : AList fun _ : String => HostFacts} {action : Nat} {hosts seen : List String}
    (h : validateHosts facts action seen hosts = []) :
    hosts.Nodup ∧ (∀ host ∈ hosts, host ∉ seen) ∧ ∀ host ∈ hosts, validateHost facts action host = [] := by
  induction hosts generalizing seen with
  | nil => simp
  | cons a hosts ih =>
    unfold validateHosts at h
    by_cases ha : a ∈ seen
    · simp [ha] at h
    · rw [if_neg ha] at h
      obtain ⟨hhost, hrest⟩ := List.append_eq_nil_iff.1 h
      obtain ⟨hnd, hseen, hok⟩ := ih hrest
      have hna : a ∉ hosts := fun hm => hseen a hm List.mem_cons_self
      refine ⟨List.nodup_cons.2 ⟨hna, hnd⟩, fun host hm => ?_, fun host hm => ?_⟩
      · rcases List.mem_cons.1 hm with rfl | hm
        · exact ha
        · exact fun hs => hseen host hm (List.mem_cons_of_mem _ hs)
      · rcases List.mem_cons.1 hm with rfl | hm
        · exact hhost
        · exact hok host hm

/-- What VALIDATE has checked of an action when it reports nothing. -/
structure ActionAccepted (catalog : Catalog) (d : ActionDefinition) : Prop where
  hosts : d.hosts ≠ []
  distinct : d.hosts.Nodup
  parse : ∀ host ∈ d.hosts, hostnameIdSafe host = true ∧ ∃ hostname, Hostname.parse host = .ok hostname
  plugin : ∃ entry, catalog.get d.plugin.name d.plugin.version = some entry

structure Accepted (catalog : Catalog) (definition : ExperimentDefinition) : Prop where
  actions : definition.actions ≠ []
  each : ∀ d ∈ definition.actions, ActionAccepted catalog d

theorem validateAction_nil {facts : AList fun _ : String => HostFacts} {catalog : Catalog} {action : Nat}
    {d : ActionDefinition} (hg : GatheredFacts facts) (h : validateAction catalog facts action d = []) :
    ActionAccepted catalog d := by
  unfold validateAction at h
  simp only [List.append_eq_nil_iff] at h
  obtain ⟨⟨⟨hhosts, hplugin⟩, -⟩, hlist⟩ := h
  obtain ⟨hnd, -, hok⟩ := validateHosts_nil hlist
  refine ⟨fun he => by simp [he] at hhosts, hnd, fun host hm => ?_, ?_⟩
  · obtain ⟨hs, f, hf, -⟩ := validateHost_nil (hok host hm)
    exact ⟨hs, hg host f hf⟩
  · unfold validatePlugin at hplugin
    split at hplugin
    next => cases hplugin
    next entry he => exact ⟨entry, he⟩

theorem validate_nil {facts : AList fun _ : String => HostFacts} {definition : ExperimentDefinition}
    {catalog : Catalog} (hg : GatheredFacts facts) (h : validate definition catalog facts = []) :
    Accepted catalog definition := by
  unfold validate at h
  obtain ⟨hne, hall⟩ := List.append_eq_nil_iff.1 h
  refine ⟨fun he => by simp [he] at hne, fun d hd => ?_⟩
  rw [List.flatMap_eq_nil_iff] at hall
  obtain ⟨i, hi⟩ := List.mem_iff_getElem?.1 hd
  exact validateAction_nil hg (hall (d, i) (List.mem_zipIdx_iff_getElem?.2 hi))

/-! ## The minted record -/

theorem mintInstance_some {id : ExperimentId} {nowMs : Int} {action : Nat} {host : String} {i : InstanceRecord}
    (h : mintInstance id nowMs action host = some i) :
    ∃ hostname, Hostname.parse host = .ok hostname ∧
      i = ⟨instanceId id hostname action, hostname, action, .pending, "", nowMs, false⟩ := by
  unfold mintInstance at h
  split at h
  next => cases h
  next hostname hp => exact ⟨hostname, hp, (Option.some.inj h).symm⟩

section
variable {id : ExperimentId} {definition : ExperimentDefinition} {graceSecs : UInt32} {nowMs marginMs : Int}

/-- Where an instance of a minted record comes from. -/
theorem mem_mint {i : InstanceRecord} (h : i ∈ (mintExperiment id definition graceSecs nowMs marginMs).instances) :
    ∃ d action host, definition.actions[action]? = some d ∧ host ∈ d.hosts ∧
      mintInstance id nowMs action host = some i := by
  obtain ⟨⟨d, action⟩, hd, hi⟩ := List.mem_flatMap.1 h
  obtain ⟨host, hh, hm⟩ := List.mem_filterMap.1 hi
  exact ⟨d, action, host, List.mem_zipIdx_iff_getElem?.1 hd, hh, hm⟩

theorem mem_mint_iff {i : InstanceRecord} (h : i ∈ (mintExperiment id definition graceSecs nowMs marginMs).instances) :
    i.state = .pending ∧ i.abortRequested = false ∧ i.instanceId = instanceId id i.hostname i.actionIndex := by
  obtain ⟨d, action, host, -, -, hm⟩ := mem_mint h
  obtain ⟨hostname, -, rfl⟩ := mintInstance_some hm
  exact ⟨rfl, rfl, rfl⟩

theorem mintExperiment_ne_nil {catalog : Catalog} (ha : Accepted catalog definition) :
    (mintExperiment id definition graceSecs nowMs marginMs).instances ≠ [] := by
  obtain ⟨d, rest, hd⟩ := List.exists_cons_of_ne_nil ha.actions
  have hacc := ha.each d (by rw [hd]; exact List.mem_cons_self)
  obtain ⟨host, hosts, hh⟩ := List.exists_cons_of_ne_nil hacc.hosts
  obtain ⟨-, hostname, hp⟩ := hacc.parse host (by rw [hh]; exact List.mem_cons_self)
  refine List.ne_nil_of_mem (a := ⟨instanceId id hostname 0, hostname, 0, .pending, "", nowMs, false⟩) ?_
  refine List.mem_flatMap.2 ⟨(d, 0), List.mem_zipIdx_iff_getElem?.2 (by rw [hd]; rfl), ?_⟩
  exact List.mem_filterMap.2 ⟨host, by rw [hh]; exact List.mem_cons_self, by simp [mintInstance, hp]⟩

/-- The ids of a minted record are distinct: they spell distinct hosts within an action, and distinct actions. -/
theorem mintExperiment_ids {catalog : Catalog} (ha : Accepted catalog definition) (hid : ':' ∉ id.toList) :
    ((mintExperiment id definition graceSecs nowMs marginMs).instances.map InstanceRecord.instanceId).Nodup := by
  unfold mintExperiment
  rw [List.map_flatMap, List.nodup_flatMap]
  constructor
  · rintro ⟨d, action⟩ hd
    have hacc := ha.each d (List.mem_of_getElem? (List.mem_zipIdx_iff_getElem?.1 hd))
    rw [List.map_filterMap]
    refine List.pairwise_filterMap.2 (hacc.distinct.imp_of_mem fun {x y} hx hy hne a hxa b hyb heq => hne ?_)
    obtain ⟨i, hi, rfl⟩ := Option.map_eq_some_iff.1 hxa
    obtain ⟨j, hj, rfl⟩ := Option.map_eq_some_iff.1 hyb
    obtain ⟨h, hp, rfl⟩ := mintInstance_some hi
    obtain ⟨k, hq, rfl⟩ := mintInstance_some hj
    obtain ⟨-, hhk, -⟩ := instanceId_inj hid hid heq
    rw [← parse_val (hacc.parse x hx).1 hp, ← parse_val (hacc.parse y hy).1 hq, hhk]
  · have hsnd : definition.actions.zipIdx.Pairwise fun x y => x.2 ≠ y.2 :=
      List.pairwise_map.1 (List.nodup_zipIdx_map_snd definition.actions)
    refine hsnd.imp fun {x y} hne a hx hy => hne ?_
    obtain ⟨i, hi, rfl⟩ := List.mem_map.1 hx
    obtain ⟨j, hj, heq⟩ := List.mem_map.1 hy
    obtain ⟨_, -, hmi⟩ := List.mem_filterMap.1 hi
    obtain ⟨_, -, hmj⟩ := List.mem_filterMap.1 hj
    obtain ⟨h, -, rfl⟩ := mintInstance_some hmi
    obtain ⟨k, -, rfl⟩ := mintInstance_some hmj
    exact (instanceId_inj hid hid heq).2.2.symm

end

end FaultForge.Master
