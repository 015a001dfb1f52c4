import FaultForge.Master.Experiment

/-!
# Registry and session map (master/src/registry.rs, sessions.rs)

The registry keeps an entry for every host that ever registered; the session map holds the stream that currently
serves a host. `gatherHostFacts` is what validation reads of both.

| here | there |
| --- | --- |
| `registerAgent`, `setTaint`, `updateHeartbeat` | registry.rs:31, 52, 65 |
| `SessionMap.insert`, `removeIfCurrent`, `sender`, `isConnected` | sessions.rs:38-79 |
| `gatherHostFacts` | dispatch.rs:151 |
-/
namespace FaultForge.Master

/-! ## Registry -/

/-- `AgentInfo` (registry.rs:10); the name repeats the hostname. -/
structure AgentInfo where
  lastSeen : Int
  tainted : Bool
deriving DecidableEq, Repr

abbrev Registry := AList fun _ : Hostname => AgentInfo

/-- The last known quarantine is carried over. -/
def registerAgent (r : Registry) (hostname : Hostname) (now : Int) : Registry :=
  r.insert hostname ⟨now, match r.lookup hostname with
    | some info => info.tainted
    | none => false⟩

def setTaint (r : Registry) (hostname : Hostname) (tainted : Bool) : Registry :=
  match r.lookup hostname with
  | some info => r.insert hostname { info with tainted }
  | none => r

def updateHeartbeat (r : Registry) (hostname : Hostname) (now : Int) : Registry :=
  match r.lookup hostname with
  | some info => r.insert hostname { info with lastSeen := now }
  | none => r

/-! ## Session map -/

/-- A stream: the outbound channel of one `Session` call. -/
abbrev StreamId := Nat

structure SessionMap where
  inner : AList fun _ : Hostname => Nat × StreamId
  epochs : Nat

def SessionMap.empty : SessionMap := ⟨∅, 0⟩

/-- The first half of `insert`, before its lock: a fresh epoch. -/
def SessionMap.fetchEpoch (m : SessionMap) : Nat × SessionMap := (m.epochs, { m with epochs := m.epochs + 1 })

/-- The second half of `insert`, under its lock. -/
def SessionMap.insert (m : SessionMap) (hostname : Hostname) (epoch : Nat) (stream : StreamId) : SessionMap :=
  { m with inner := m.inner.insert hostname (epoch, stream) }

def SessionMap.removeIfCurrent (m : SessionMap) (hostname : Hostname) (epoch : Nat) : SessionMap :=
  match m.inner.lookup hostname with
  | some (e, _) => if e = epoch then { m with inner := m.inner.erase hostname } else m
  | none => m

def SessionMap.sender (m : SessionMap) (hostname : Hostname) : Option StreamId :=
  (m.inner.lookup hostname).map Prod.snd

def SessionMap.isConnected (m : SessionMap) (hostname : Hostname) : Bool := (m.inner.lookup hostname).isSome

/-! ## Facts for validation -/

def hostFacts (r : Registry) (m : SessionMap) (hostname : Hostname) : HostFacts where
  registered := (r.lookup hostname).isSome
  connected := m.isConnected hostname
  tainted := match r.lookup hostname with
    | some info => info.tainted
    | none => false

/-- A host that does not parse gets no facts, and counts as unregistered. -/
def addFacts (r : Registry) (m : SessionMap) (facts : AList fun _ : String => HostFacts) (host : String) :
    AList fun _ : String => HostFacts :=
  if host ∈ facts then facts
  else match Hostname.parse host with
    | .error _ => facts
    | .ok hostname => facts.insert host (hostFacts r m hostname)

def gatherHostFacts (r : Registry) (m : SessionMap) (definition : ExperimentDefinition) :
    AList fun _ : String => HostFacts :=
  (definition.actions.flatMap ActionDefinition.hosts).foldl (addFacts r m) ∅

/-- Facts that the gathering loop can leave, whatever the registry and the session map were at each host: only a host
that parses has any. -/
def GatheredFacts (facts : AList fun _ : String => HostFacts) : Prop :=
  ∀ host f, facts.lookup host = some f → ∃ hostname, Hostname.parse host = .ok hostname

theorem gatheredFacts_empty : GatheredFacts ∅ := fun _ _ hl => by cases hl

theorem addFacts_gathered {facts : AList fun _ : String => HostFacts} (h : GatheredFacts facts) (r : Registry)
    (m : SessionMap) (host : String) : GatheredFacts (addFacts r m facts host) := by
  intro a f hl
  unfold addFacts at hl
  split at hl
  · exact h a f hl
  · split at hl
    next => exact h a f hl
    next hostname hp =>
      by_cases he : a = host
      · exact ⟨hostname, he ▸ hp⟩
      · rw [AList.lookup_insert_ne he] at hl
        exact h a f hl

theorem gatherHostFacts_gathered (r : Registry) (m : SessionMap) (definition : ExperimentDefinition) :
    GatheredFacts (gatherHostFacts r m definition) := by
  have key : ∀ (hosts : List String) (facts : AList fun _ : String => HostFacts), GatheredFacts facts →
      GatheredFacts (hosts.foldl (addFacts r m) facts) := by
    intro hosts
    induction hosts with
    | nil => exact fun _ hf => hf
    | cons host hosts ih => exact fun _ hf => ih _ (addFacts_gathered hf r m host)
  exact key _ ∅ gatheredFacts_empty

end FaultForge.Master
