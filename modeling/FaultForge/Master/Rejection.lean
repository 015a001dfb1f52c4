import FaultForge.Master.Record

/-!
# What a rejection names (experiment.rs:216-295)

"Run every VALIDATE check and return **all** failures", says `validate`. A `Check` is one check of one action, or of one
host of it, and every failure is about one (`ValidationFailure.check`). The checks of an action are made independently
of each other; those of a host are a chain of `continue` and `else if`, which reports the first that fails
(`validateHost_eq`) and hides the others.

* `rejection_names_all` — the failures are those of the checks that fail, all of them, exactly when no host fails two.
* `rejection_hides_taint` — a quarantined host whose session is gone is reported as disconnected only.
-/
namespace FaultForge.Master

/-! ## The checks -/

/-- The checks of a host by itself, in the order of the source. -/
inductive HostCheck
  | idSafe
  | registered
  | connected
  | untainted
deriving DecidableEq

/-- What VALIDATE takes a host to be; a host without facts is not registered. -/
def factsOf (facts : AList fun _ : String => HostFacts) (hostname : String) : HostFacts :=
  (facts.lookup hostname).getD ⟨false, false, false⟩

def HostCheck.fails (facts : AList fun _ : String => HostFacts) (hostname : String) : HostCheck → Bool
  | .idSafe => !hostnameIdSafe hostname
  | .registered => !(factsOf facts hostname).registered
  | .connected => !(factsOf facts hostname).connected
  | .untainted => (factsOf facts hostname).tainted

/-- The checks of an action. -/
inductive ActionCheck
  | hosts
  | plugin
  | params
  | duration
  | cap
  | distinct (hostname : String)
  | host (check : HostCheck) (hostname : String)

def ActionCheck.Fails (catalog : Catalog) (facts : AList fun _ : String => HostFacts) (d : ActionDefinition) :
    ActionCheck → Prop
  | .hosts => d.hosts = []
  | .plugin => catalog.get d.plugin.name d.plugin.version = none
  | .params => ∃ entry, catalog.get d.plugin.name d.plugin.version = some entry ∧
      validateParams entry.manifest.paramsSchema d.params ≠ .ok ()
  | .duration => d.durationSecs = 0
  | .cap => ∃ entry, catalog.get d.plugin.name d.plugin.version = some entry ∧
      entry.manifest.maxDurationSecs < d.durationSecs
  | .distinct hostname => 1 < d.hosts.count hostname
  | .host check hostname => hostname ∈ d.hosts ∧ check.fails facts hostname = true

inductive Check
  | actions
  | ofAction (action : Nat) (check : ActionCheck)

def Check.Fails (definition : ExperimentDefinition) (catalog : Catalog) (facts : AList fun _ : String => HostFacts) :
    Check → Prop
  | .actions => definition.actions = []
  | .ofAction action check => ∃ d, definition.actions[action]? = some d ∧ check.Fails catalog facts d

/-- The check that a failure reports. -/
def ValidationFailure.check : ValidationFailure → Check
  | .noActions => .actions
  | .noHosts action => .ofAction action .hosts
  | .unknownPlugin action _ _ => .ofAction action .plugin
  | .invalidParams action _ => .ofAction action .params
  | .zeroDuration action => .ofAction action .duration
  | .durationOverMax action _ _ => .ofAction action .cap
  | .duplicateHost action hostname => .ofAction action (.distinct hostname)
  | .hostnameNotIdSafe action hostname => .ofAction action (.host .idSafe hostname)
  | .hostUnknown action hostname => .ofAction action (.host .registered hostname)
  | .hostDisconnected action hostname => .ofAction action (.host .connected hostname)
  | .hostTainted action hostname => .ofAction action (.host .untainted hostname)

/-- The failures are of checks that fail, and none that fails goes without one. -/
structure NamesAll (definition : ExperimentDefinition) (catalog : Catalog) (facts : AList fun _ : String => HostFacts)
    (failures : List ValidationFailure) : Prop where
  sound : ∀ f ∈ failures, f.check.Fails definition catalog facts
  complete : ∀ check : Check, check.Fails definition catalog facts → ∃ f ∈ failures, f.check = check

/-- No target fails two of the checks of a host. -/
def OneFailureEach (definition : ExperimentDefinition) (facts : AList fun _ : String => HostFacts) : Prop :=
  ∀ d ∈ definition.actions, ∀ hostname ∈ d.hosts, ∀ check check' : HostCheck,
    check.fails facts hostname = true → check'.fails facts hostname = true → check = check'

/-! ## One host -/

section
variable {facts : AList fun _ : String => HostFacts} {action : Nat} {hostname : String}

/-- The check that the chain stops at. -/
def HostCheck.first (facts : AList fun _ : String => HostFacts) (hostname : String) : Option HostCheck :=
  [HostCheck.idSafe, .registered, .connected, .untainted].find? fun check => check.fails facts hostname

def HostCheck.failure (action : Nat) (hostname : String) : HostCheck → ValidationFailure
  | .idSafe => .hostnameNotIdSafe action hostname
  | .registered => .hostUnknown action hostname
  | .connected => .hostDisconnected action hostname
  | .untainted => .hostTainted action hostname

theorem HostCheck.failure_check (check : HostCheck) :
    (check.failure action hostname).check = .ofAction action (.host check hostname) := by
  cases check <;> rfl

/-- The chain reports one check at most. -/
theorem validateHost_eq (facts : AList fun _ : String => HostFacts) (action : Nat) (hostname : String) :
    validateHost facts action hostname =
      ((HostCheck.first facts hostname).map (HostCheck.failure action hostname)).toList := by
  unfold validateHost HostCheck.first
  cases hs : hostnameIdSafe hostname with
  | false => simp [HostCheck.fails, HostCheck.failure, hs]
  | true =>
    cases hf : factsOf facts hostname with | mk registered connected tainted
    have hfacts : (facts.lookup hostname).getD ⟨false, false, false⟩ = ⟨registered, connected, tainted⟩ := hf
    cases registered <;> cases connected <;> cases tainted <;>
      simp [HostCheck.fails, HostCheck.failure, hs, hf, hfacts]

theorem HostCheck.first_fails {check : HostCheck} (h : HostCheck.first facts hostname = some check) :
    check.fails facts hostname = true :=
  List.find?_some h

theorem HostCheck.first_isSome {check : HostCheck} (h : check.fails facts hostname = true) :
    ∃ first, HostCheck.first facts hostname = some first := by
  refine Option.isSome_iff_exists.1 (List.find?_isSome.2 ⟨check, ?_, h⟩)
  cases check <;> simp

/-- Every check that fails is the first exactly when no two fail. -/
theorem HostCheck.first_iff :
    (∀ check : HostCheck, check.fails facts hostname = true → HostCheck.first facts hostname = some check) ↔
      ∀ check check' : HostCheck, check.fails facts hostname = true → check'.fails facts hostname = true →
        check = check' := by
  constructor
  · intro h check check' hc hc'
    exact Option.some.inj ((h check hc).symm.trans (h check' hc'))
  · intro h check hc
    obtain ⟨first, hfirst⟩ := HostCheck.first_isSome hc
    rw [hfirst, h first check (HostCheck.first_fails hfirst) hc]

theorem mem_validateHost {f : ValidationFailure} :
    f ∈ validateHost facts action hostname ↔
      ∃ check, HostCheck.first facts hostname = some check ∧ f = check.failure action hostname := by
  rw [validateHost_eq, Option.mem_toList, Option.map_eq_some_iff]
  simp only [eq_comm]

end

/-! ## One action -/

section
variable {catalog : Catalog} {facts : AList fun _ : String => HostFacts} {action : Nat} {d : ActionDefinition}
  {f : ValidationFailure}

/-- The loop over the hosts: each repetition of a host, and the chain of each host at its first place. -/
theorem mem_validateHosts_iff {hosts seen : List String} :
    f ∈ validateHosts facts action seen hosts ↔
      (∃ hostname ∈ hosts, (hostname ∈ seen ∨ 1 < hosts.count hostname) ∧ f = .duplicateHost action hostname) ∨
        ∃ hostname ∈ hosts, hostname ∉ seen ∧ f ∈ validateHost facts action hostname := by
  induction hosts generalizing seen with
  | nil => simp [validateHosts]
  | cons a hosts ih =>
    unfold validateHosts
    by_cases ha : a ∈ seen
    · rw [if_pos ha, List.mem_cons, ih]
      constructor
      · rintro (rfl | ⟨h, hm, hrep, rfl⟩ | ⟨h, hm, hn, hf⟩)
        · exact .inl ⟨a, List.mem_cons_self, .inl ha, rfl⟩
        · have hrep' : h ∈ seen ∨ 1 < (a :: hosts).count h :=
            hrep.imp_right fun hc => Nat.lt_of_lt_of_le hc List.count_le_count_cons
          exact .inl ⟨h, List.mem_cons_of_mem _ hm, hrep', rfl⟩
        · exact .inr ⟨h, List.mem_cons_of_mem _ hm, hn, hf⟩
      · rintro (⟨h, hm, hrep, rfl⟩ | ⟨h, hm, hn, hf⟩)
        · by_cases he : h = a
          · exact .inl (by rw [he])
          · rw [List.count_cons_of_ne (Ne.symm he)] at hrep
            exact .inr (.inl ⟨h, List.mem_of_ne_of_mem he hm, hrep, rfl⟩)
        · have he : h ≠ a := fun he => hn (he ▸ ha)
          exact .inr (.inr ⟨h, List.mem_of_ne_of_mem he hm, hn, hf⟩)
    · rw [if_neg ha, List.mem_append, ih]
      constructor
      · rintro (hf | ⟨h, hm, hrep, rfl⟩ | ⟨h, hm, hn, hf⟩)
        · exact .inr ⟨a, List.mem_cons_self, ha, hf⟩
        · refine .inl ⟨h, List.mem_cons_of_mem _ hm, ?_, rfl⟩
          by_cases he : h = a
          · -- `a` itself comes again
            have hpos := List.count_pos_iff.2 hm
            rw [he, List.count_cons_self]
            rw [he] at hpos
            exact .inr (by omega)
          · rw [List.count_cons_of_ne (Ne.symm he)]
            exact hrep.imp_left fun hs => List.mem_of_ne_of_mem he hs
        · exact .inr ⟨h, List.mem_cons_of_mem _ hm, fun hs => hn (List.mem_cons_of_mem _ hs), hf⟩
      · rintro (⟨h, hm, hrep, rfl⟩ | ⟨h, hm, hn, hf⟩)
        · by_cases he : h = a
          · rw [he, List.count_cons_self] at hrep
            have hpos : 0 < hosts.count a := by
              rcases hrep with hs | hc
              · exact absurd hs ha
              · omega
            exact .inr (.inl ⟨a, List.count_pos_iff.1 hpos, .inl List.mem_cons_self, by rw [he]⟩)
          · rw [List.count_cons_of_ne (Ne.symm he)] at hrep
            exact .inr (.inl ⟨h, List.mem_of_ne_of_mem he hm, hrep.imp_left (List.mem_cons_of_mem _), rfl⟩)
        · by_cases he : h = a
          · exact .inl (he ▸ hf)
          · exact .inr (.inr ⟨h, List.mem_of_ne_of_mem he hm, by simp [he, hn], hf⟩)

/-- A failure of the action is about a check that fails: one of the action as a whole, or of a host of it. -/
theorem mem_validateAction (h : f ∈ validateAction catalog facts action d) :
    (∃ check : ActionCheck, f.check = .ofAction action check ∧ check.Fails catalog facts d ∧
      ∀ c hostname, check ≠ .host c hostname) ∨
    ∃ hostname ∈ d.hosts, f ∈ validateHost facts action hostname := by
  unfold validateAction validatePlugin at h
  simp only [List.mem_append] at h
  rcases h with ((h | h) | h) | h
  · split at h
    next hh => exact .inl ⟨.hosts, by rw [List.mem_singleton.1 h]; rfl, hh, by simp⟩
    next => cases h
  · split at h
    next hp => exact .inl ⟨.plugin, by rw [List.mem_singleton.1 h]; rfl, hp, by simp⟩
    next entry hp =>
      rcases List.mem_append.1 h with h | h
      · split at h
        next e he =>
          refine .inl ⟨.params, by rw [List.mem_singleton.1 h]; rfl, ⟨entry, hp, ?_⟩, by simp⟩
          rw [he]
          simp
        next => cases h
      · split at h
        next hlt => exact .inl ⟨.cap, by rw [List.mem_singleton.1 h]; rfl, ⟨entry, hp, hlt⟩, by simp⟩
        next => cases h
  · split at h
    next hz => exact .inl ⟨.duration, by rw [List.mem_singleton.1 h]; rfl, hz, by simp⟩
    next => cases h
  · rcases mem_validateHosts_iff.1 h with ⟨hostname, hm, hrep, rfl⟩ | ⟨hostname, hm, -, hf⟩
    · exact .inl ⟨.distinct hostname, rfl, hrep.resolve_left List.not_mem_nil, by simp⟩
    · exact .inr ⟨hostname, hm, hf⟩

theorem validateAction_sound (h : f ∈ validateAction catalog facts action d) :
    ∃ check : ActionCheck, f.check = .ofAction action check ∧ check.Fails catalog facts d := by
  rcases mem_validateAction h with ⟨check, hf, hfails, -⟩ | ⟨hostname, hm, hf⟩
  · exact ⟨check, hf, hfails⟩
  · obtain ⟨check, hfirst, rfl⟩ := mem_validateHost.1 hf
    exact ⟨.host check hostname, check.failure_check, hm, HostCheck.first_fails hfirst⟩

/-- A check that fails, but for those of a host, is reported. -/
theorem validateAction_reports {check : ActionCheck} (h : check.Fails catalog facts d)
    (hhost : ∀ c hostname, check ≠ .host c hostname) :
    ∃ f ∈ validateAction catalog facts action d, f.check = .ofAction action check := by
  unfold validateAction
  simp only [List.mem_append]
  cases check with
  | hosts =>
    have hh : d.hosts = [] := h
    exact ⟨.noHosts action, .inl (.inl (.inl (by simp [hh]))), rfl⟩
  | duration =>
    have hz : d.durationSecs = 0 := h
    exact ⟨.zeroDuration action, .inl (.inr (by simp [hz])), rfl⟩
  | plugin =>
    refine ⟨.unknownPlugin action d.plugin.name d.plugin.version, .inl (.inl (.inr ?_)), rfl⟩
    unfold validatePlugin
    rw [show catalog.get _ _ = none from h]
    exact List.mem_singleton.2 rfl
  | params =>
    obtain ⟨entry, hp, hparams⟩ := h
    cases he : validateParams entry.manifest.paramsSchema d.params with
    | ok u => exact absurd he hparams
    | error e =>
      refine ⟨.invalidParams action e.toString, .inl (.inl (.inr ?_)), rfl⟩
      simp [validatePlugin, hp, he]
  | cap =>
    obtain ⟨entry, hp, hlt⟩ := h
    refine ⟨.durationOverMax action d.durationSecs entry.manifest.maxDurationSecs, .inl (.inl (.inr ?_)), rfl⟩
    unfold validatePlugin
    rw [hp]
    exact List.mem_append_right _ (by rw [if_pos hlt]; exact List.mem_singleton.2 rfl)
  | distinct hostname =>
    have hm : hostname ∈ d.hosts := List.count_pos_iff.1 (Nat.lt_of_succ_lt h)
    exact ⟨.duplicateHost action hostname,
      .inr (mem_validateHosts_iff.2 (.inl ⟨hostname, hm, .inr h, rfl⟩)), rfl⟩
  | host c hostname => exact absurd rfl (hhost c hostname)

/-- A check of a host is reported exactly where the chain stops at it. -/
theorem validateAction_host {check : HostCheck} {hostname : String} (hm : hostname ∈ d.hosts) :
    (∃ f ∈ validateAction catalog facts action d, f.check = .ofAction action (.host check hostname)) ↔
      HostCheck.first facts hostname = some check := by
  constructor
  · rintro ⟨f, hf, hcheck⟩
    rcases mem_validateAction hf with ⟨c, hc, -, hne⟩ | ⟨hostname', -, hf'⟩
    · rw [hc] at hcheck
      exact absurd (Check.ofAction.inj hcheck).2 (hne check hostname)
    · obtain ⟨c, hfirst, rfl⟩ := mem_validateHost.1 hf'
      rw [HostCheck.failure_check] at hcheck
      obtain ⟨rfl, rfl⟩ := ActionCheck.host.inj (Check.ofAction.inj hcheck).2
      exact hfirst
  · intro hfirst
    have hf : check.failure action hostname ∈ validateHost facts action hostname :=
      mem_validateHost.2 ⟨check, hfirst, rfl⟩
    have hloop := mem_validateHosts_iff.2 (.inr ⟨hostname, hm, List.not_mem_nil, hf⟩)
    exact ⟨check.failure action hostname, List.mem_append_right _ hloop, check.failure_check⟩

end

/-! ## The whole definition -/

section
variable {definition : ExperimentDefinition} {catalog : Catalog} {facts : AList fun _ : String => HostFacts}

theorem mem_validate {f : ValidationFailure} : f ∈ validate definition catalog facts ↔
    (definition.actions = [] ∧ f = .noActions) ∨
      ∃ d action, definition.actions[action]? = some d ∧ f ∈ validateAction catalog facts action d := by
  unfold validate
  simp only [List.mem_append, List.mem_flatMap, Prod.exists, List.mem_zipIdx_iff_getElem?]
  refine or_congr ?_ Iff.rfl
  cases definition.actions <;> simp

theorem validate_sound {f : ValidationFailure} (h : f ∈ validate definition catalog facts) :
    f.check.Fails definition catalog facts := by
  rcases mem_validate.1 h with ⟨hnil, rfl⟩ | ⟨d, action, hd, hf⟩
  · exact hnil
  · obtain ⟨check, hcheck, hfails⟩ := validateAction_sound hf
    rw [hcheck]
    exact ⟨d, hd, hfails⟩

/-- A check that fails is reported, unless it is a check of a host and an earlier one of that host fails. -/
theorem validate_reports {check : Check} (h : check.Fails definition catalog facts)
    (hfirst : ∀ action c hostname, check = .ofAction action (.host c hostname) →
      HostCheck.first facts hostname = some c) :
    ∃ f ∈ validate definition catalog facts, f.check = check := by
  cases check with
  | actions => exact ⟨.noActions, mem_validate.2 (.inl ⟨h, rfl⟩), rfl⟩
  | ofAction action check =>
    obtain ⟨d, hd, hfails⟩ := h
    obtain ⟨f, hf, hcheck⟩ : ∃ f ∈ validateAction catalog facts action d, f.check = .ofAction action check := by
      by_cases hhost : ∃ c hostname, check = .host c hostname
      · obtain ⟨c, hostname, rfl⟩ := hhost
        exact (validateAction_host hfails.1).2 (hfirst action c hostname rfl)
      · exact validateAction_reports hfails fun c hostname he => hhost ⟨c, hostname, he⟩
    exact ⟨f, mem_validate.2 (.inr ⟨d, action, hd, hf⟩), hcheck⟩

/-- A definition is rejected exactly when some check of it fails. -/
theorem validate_nil_iff :
    validate definition catalog facts = [] ↔ ∀ check : Check, ¬ check.Fails definition catalog facts := by
  constructor
  · intro hnil check hfails
    obtain ⟨f, hf, -⟩ : ∃ f ∈ validate definition catalog facts, True := by
      by_cases hhost : ∃ action c hostname, check = .ofAction action (.host c hostname)
      · obtain ⟨action, c, hostname, rfl⟩ := hhost
        obtain ⟨d, hd, hm, hc⟩ := hfails
        obtain ⟨first, hfirst⟩ := HostCheck.first_isSome hc
        have hfails' : Check.Fails definition catalog facts (.ofAction action (.host first hostname)) :=
          ⟨d, hd, hm, HostCheck.first_fails hfirst⟩
        obtain ⟨f, hf, -⟩ := validate_reports hfails' fun action' c' hostname' he => by
          obtain ⟨rfl, rfl⟩ := ActionCheck.host.inj (Check.ofAction.inj he).2
          exact hfirst
        exact ⟨f, hf, trivial⟩
      · obtain ⟨f, hf, -⟩ := validate_reports hfails fun action c hostname he =>
          absurd ⟨action, c, hostname, he⟩ hhost
        exact ⟨f, hf, trivial⟩
    rw [hnil] at hf
    cases hf
  · intro h
    exact List.eq_nil_iff_forall_not_mem.2 fun f hf => h f.check (validate_sound hf)

/-- **What a rejection names**: failures of checks that fail, always; and all of those, exactly when no target fails two
of the checks of a host. -/
theorem rejection_names_all (definition : ExperimentDefinition) (catalog : Catalog)
    (facts : AList fun _ : String => HostFacts) :
    NamesAll definition catalog facts (validate definition catalog facts) ↔ OneFailureEach definition facts := by
  constructor
  · rintro ⟨-, hcomplete⟩ d hd hostname hm
    obtain ⟨action, hact⟩ := List.mem_iff_getElem?.1 hd
    refine HostCheck.first_iff.1 fun check hfails => ?_
    obtain ⟨f, hf, hcheck⟩ := hcomplete (.ofAction action (.host check hostname)) ⟨d, hact, hm, hfails⟩
    rcases mem_validate.1 hf with ⟨-, rfl⟩ | ⟨d', action', hd', hf'⟩
    · cases hcheck
    · obtain ⟨c, hc, -⟩ := validateAction_sound hf'
      obtain ⟨rfl, -⟩ := Check.ofAction.inj (hc.symm.trans hcheck)
      obtain rfl := Option.some.inj (hact.symm.trans hd')
      exact (validateAction_host hm).1 ⟨f, hf', hcheck⟩
  · intro hone
    refine ⟨fun f hf => validate_sound hf, fun check hfails => validate_reports hfails ?_⟩
    rintro action c hostname rfl
    obtain ⟨d, hd, hm, hfails⟩ := hfails
    exact HostCheck.first_iff.2 (hone d (List.mem_of_getElem? hd) hostname hm) c hfails

end

/-- One target is quarantined and its session is gone. -/
def downFacts : AList fun _ : String => HostFacts :=
  ((∅ : AList fun _ : String => HostFacts).insert "web-01" ⟨true, false, true⟩).insert "web-02" ⟨true, true, false⟩

theorem rejection_hides_taint :
    validate sampleDefinition sampleCatalog downFacts = [.hostDisconnected 0 "web-01"] ∧
      Check.Fails sampleDefinition sampleCatalog downFacts (.ofAction 0 (.host .untainted "web-01")) ∧
      ¬ NamesAll sampleDefinition sampleCatalog downFacts (validate sampleDefinition sampleCatalog downFacts) := by
  have hval : validate sampleDefinition sampleCatalog downFacts = [.hostDisconnected 0 "web-01"] := by decide +kernel
  have hfails : Check.Fails sampleDefinition sampleCatalog downFacts (.ofAction 0 (.host .untainted "web-01")) :=
    ⟨_, rfl, by decide +kernel, by decide +kernel⟩
  refine ⟨hval, hfails, ?_⟩
  intro hall
  obtain ⟨f, hf, hcheck⟩ := hall.complete _ hfails
  rw [hval, List.mem_singleton] at hf
  rw [hf] at hcheck
  cases hcheck

end FaultForge.Master
