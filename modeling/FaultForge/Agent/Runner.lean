import FaultForge.Agent.TwoTrack
import FaultForge.Lib.Pipe

/-!
# The plugin process runner (runner.rs)

One `invoke` as a transition system: the thread that runs it, the two threads that read the plugin's pipes, the plugin
process, and the processes it leaves behind, which may go on holding its pipes. What the plugin does, what the
operating system answers and when a thread gets its turn are free.

| here | there |
| --- | --- |
| `RunnerPc`, `runnerStep` | `invoke` runner.rs:67, `spawn_entrypoint` :118, `wait_with_timeout` :196 |
| its `.finish` | `finish_pipe_reader` :183; the buffer of a `PipeCapture` is what its reader took out of the pipe |
| `Track.act` of `.read`, `.eof`, `.readFails` | `spawn_pipe_reader` :159 |
| `printed` | `split_stdout` :224 |

`invoke_faithful` says what a returned invocation says about the process; `input_whole`, what the plugin can have read
when it sees the end of its input.
-/
namespace FaultForge.Agent

open Lts Pipes

/-- `WAIT_POLL`, in milliseconds. -/
def WAIT_POLL : Nat := 25
def SPAWN_RETRIES : Nat := 5
def SPAWN_RETRY_BACKOFF : Nat := 20
def ETXTBSY : Int := 26
def PIPE_EOF_GRACE : Nat := 500
/-- The size of a reader's `chunk`. -/
def CHUNK : Nat := 4096

/-- What an invocation is given, and the library functions it calls. -/
structure Job where
  /-- `serde_json::to_vec(input)`. -/
  payload : Except String (List UInt8)
  /-- The hard timeout, in milliseconds. -/
  timeout : Nat
  /-- How many bytes a pipe holds. -/
  capacity : Nat
  isEvent : String → Bool
  /-- `String::from_utf8_lossy`. -/
  lossy : List UInt8 → String

/-- The bytes for stdin; nothing is spawned where there are none. -/
def Job.bytes (J : Job) : List UInt8 :=
  match J.payload with
  | .ok bytes => bytes
  | .error _ => []

inductive ExitStatus
  | code (c : Int)
  | signal
deriving DecidableEq, Repr

/-- `status.code()` as `wait_with_timeout` reads it (runner.rs:201). -/
def ExitStatus.processEnd : ExitStatus → ProcessEnd
  | .code c => .code c
  | .signal => .signalled

inductive Child
  | absent
  | running
  | zombie (status : ExitStatus)
  | reaped (status : ExitStatus)
deriving DecidableEq, Repr

def Child.live : Child → Prop
  | .running | .zombie _ => True
  | .absent | .reaped _ => False

/-- `std::io::Error` as `spawn_entrypoint` reads it. -/
structure SpawnError where
  errno : Option Int
  text : String

/-! ## The pipes -/

/-- A pipe the plugin writes to, with the thread that reads it. -/
structure Track where
  pipe : Pipe UInt8
  writers : Holders
  /-- The reader has sent on `eof_tx`. -/
  done : Bool
  /-- It stopped at a read error. -/
  cut : Bool
  /-- `recv_timeout` gave up on it. -/
  late : Bool

def Track.fresh (writers : Holders) : Track := ⟨.empty, writers, false, false, false⟩

inductive TrackAct
  | write (bytes : List UInt8)
  | hold (act : HolderAct)
  | read (n : Nat)
  | eof
  | readFails

/-- One step of who writes to the pipe, or of its reader, once it has been started. -/
def Track.act (capacity : Nat) (reading : Bool) (t : Track) : TrackAct → Option Track
  | .write bytes =>
    if t.writers.any ∧ t.pipe.content.length + bytes.length ≤ capacity then some { t with pipe := t.pipe.put bytes }
    else none
  | .hold a => (t.writers.act a).map fun writers => { t with writers }
  | .read n =>
    if reading ∧ t.done = false ∧ 0 < n ∧ n ≤ CHUNK ∧ n ≤ t.pipe.content.length then
      some { t with pipe := t.pipe.take n }
    else none
  | .eof =>
    if reading ∧ t.done = false ∧ t.pipe.content = [] ∧ t.writers.any = false then some { t with done := true }
    else none
  | .readFails => if reading ∧ t.done = false then some { t with done := true, cut := true } else none

/-- The plugin's stdin. -/
structure Input where
  pipe : Pipe UInt8
  readers : Holders
  /-- The runner has dropped its end. -/
  closed : Bool
  /-- Somebody has read the end of it. -/
  ended : Bool

def Input.fresh (readers : Holders) : Input := ⟨.empty, readers, false, false⟩

inductive InputAct
  | consume (n : Nat)
  | eof
  | hold (act : HolderAct)

def Input.act (i : Input) : InputAct → Option Input
  | .consume n =>
    if i.readers.any ∧ 0 < n ∧ n ≤ i.pipe.content.length then some { i with pipe := i.pipe.take n } else none
  | .eof => if i.readers.any ∧ i.closed ∧ i.pipe.content = [] then some { i with ended := true } else none
  | .hold a => (i.readers.act a).map fun readers => { i with readers }

/-! ## The runner -/

inductive RunnerPc
  /-- About to call `Command::spawn`. -/
  | spawn (attempt : Nat)
  | backoff (attempt wake : Nat)
  /-- In `write_all`, with this still to be written. -/
  | feed (rest : List UInt8)
  /-- About to call `try_wait`. -/
  | poll
  | sleep (wake : Nat)
  /-- In the `wait` after a kill. -/
  | reap (status : ProcessEnd)
  | finishOut (status : ProcessEnd) (limit : Nat)
  | finishErr (status : ProcessEnd) (stdout : String) (limit : Nat)
  | returned (invocation : Invocation)

/-- The readers are started after `write_all`. -/
def RunnerPc.reading : RunnerPc → Bool
  | .spawn _ | .backoff _ _ | .feed _ => false
  | _ => true

structure Invoking where
  /-- Milliseconds since the call. -/
  now : Nat
  pc : RunnerPc
  /-- `wait_with_timeout`'s `started`. -/
  started : Nat
  child : Child
  /-- When `kill` was called. -/
  killed : Option Nat
  /-- The operating system has refused to say how the child ended. -/
  lost : Bool
  stdin : Input
  stdout : Track
  stderr : Track

/-- `failed` (runner.rs:137). -/
def Invocation.failed (reason : String) : Invocation := ⟨[], "", .failed reason⟩

/-- The call, with the input encoded or not. -/
def Invoking.start (J : Job) : Invoking where
  now := 0
  pc := match J.payload with
    | .error e => .returned (.failed s!"could not encode plugin input: {e}")
    | .ok _ => .spawn 0
  started := 0
  child := .absent
  killed := none
  lost := false
  stdin := .fresh .nobody
  stdout := .fresh .nobody
  stderr := .fresh .nobody

/-- The child has ended; its ends of the pipes are closed. -/
def Invoking.exit (w : Invoking) (status : ExitStatus) : Invoking :=
  { w with
    child := .zombie status
    stdin.readers := w.stdin.readers.exit
    stdout.writers := w.stdout.writers.exit
    stderr.writers := w.stderr.writers.exit }

inductive RunnerLabel
  | tick
  /-- `Command::spawn` returns. -/
  | spawn (error : Option SpawnError)
  | wake
  /-- `write_all` moves on by `n` bytes. -/
  | feed (n : Nat)
  /-- It returns: all is written, or nobody is left to read. -/
  | fed
  /-- `try_wait`, and the `kill` that may follow. -/
  | look (error : Option String)
  /-- `wait` returns; it may fail. -/
  | waited (ok : Bool)
  /-- `recv_timeout` returns, and the buffer is copied. -/
  | finish
  /-- A killed child dies. -/
  | die
  | exit (status : ExitStatus)
  | stdin (act : InputAct)
  | stdout (act : TrackAct)
  | stderr (act : TrackAct)

def runnerStep (J : Job) (w : Invoking) : RunnerLabel → Option Invoking
  | .tick => some { w with now := w.now + 1 }
  | .spawn error =>
    match w.pc, error with
    | .spawn _, none => some { w with
        child := .running, stdin := .fresh .sole, stdout := .fresh .sole, stderr := .fresh .sole, pc := .feed J.bytes }
    | .spawn attempt, some e =>
      if e.errno = some ETXTBSY ∧ attempt < SPAWN_RETRIES then
        some { w with pc := .backoff (attempt + 1) (w.now + SPAWN_RETRY_BACKOFF) }
      else some { w with pc := .returned (.failed s!"spawn failed: {e.text}") }
    | _, _ => none
  | .wake =>
    match w.pc with
    | .backoff attempt wake => if wake ≤ w.now then some { w with pc := .spawn attempt } else none
    | .sleep wake => if wake ≤ w.now then some { w with pc := .poll } else none
    | _ => none
  | .feed n =>
    match w.pc with
    | .feed rest =>
      if w.stdin.readers.any ∧ 0 < n ∧ n ≤ rest.length ∧ w.stdin.pipe.content.length + n ≤ J.capacity then
        some { w with pc := .feed (rest.drop n), stdin.pipe := w.stdin.pipe.put (rest.take n) }
      else none
    | _ => none
  | .fed =>
    match w.pc with
    | .feed rest =>
      if rest = [] ∨ w.stdin.readers.any = false then
        some { w with stdin.closed := true, started := w.now, pc := .poll }
      else none
    | _ => none
  | .look error =>
    match w.pc, error, w.child with
    | .poll, some e, _ => some { w with
        killed := some w.now, lost := true, pc := .reap (.failed s!"wait failed: {e}") }
    | .poll, none, .zombie status => some { w with
        child := .reaped status, pc := .finishOut status.processEnd (w.now + PIPE_EOF_GRACE) }
    | .poll, none, .running =>
      if J.timeout ≤ w.now - w.started then some { w with killed := some w.now, pc := .reap .timedOut }
      else some { w with pc := .sleep (w.now + WAIT_POLL) }
    | _, _, _ => none
  | .waited ok =>
    match w.pc, w.child, ok with
    | .reap status, .zombie s, true => some { w with
        child := .reaped s, pc := .finishOut status (w.now + PIPE_EOF_GRACE) }
    | .reap status, _, false => some { w with lost := true, pc := .finishOut status (w.now + PIPE_EOF_GRACE) }
    | _, _, _ => none
  | .finish =>
    match w.pc with
    | .finishOut status limit =>
      if w.stdout.done ∨ limit ≤ w.now then some { w with
        stdout.late := !w.stdout.done
        pc := .finishErr status (J.lossy w.stdout.pipe.took) (w.now + PIPE_EOF_GRACE) }
      else none
    | .finishErr status stdout limit =>
      if w.stderr.done ∨ limit ≤ w.now then some { w with
        stderr.late := !w.stderr.done
        pc := .returned (printed J.isEvent stdout (J.lossy w.stderr.pipe.took) status) }
      else none
    | _ => none
  | .die => if w.child = .running ∧ w.killed.isSome then some (w.exit .signal) else none
  | .exit status => if w.child = .running then some (w.exit status) else none
  | .stdin act => (w.stdin.act act).map fun stdin => { w with stdin }
  | .stdout act => (w.stdout.act J.capacity w.pc.reading act).map fun stdout => { w with stdout }
  | .stderr act => (w.stderr.act J.capacity w.pc.reading act).map fun stderr => { w with stderr }

def runnerLts (J : Job) : Lts.System Invoking RunnerLabel where
  init w := w = .start J
  step := runnerStep J

/-! ## What a step can do -/

inductive RunnerStep (J : Job) (w : Invoking) : RunnerLabel → Invoking → Prop
  | tick : RunnerStep J w .tick { w with now := w.now + 1 }
  | spawned {attempt : Nat} : w.pc = .spawn attempt →
      RunnerStep J w (.spawn none) { w with
        child := .running, stdin := .fresh .sole, stdout := .fresh .sole, stderr := .fresh .sole, pc := .feed J.bytes }
  | busy {attempt : Nat} {e : SpawnError} : w.pc = .spawn attempt → attempt < SPAWN_RETRIES →
      RunnerStep J w (.spawn (some e)) { w with pc := .backoff (attempt + 1) (w.now + SPAWN_RETRY_BACKOFF) }
  | unspawned {attempt : Nat} {e : SpawnError} : w.pc = .spawn attempt →
      RunnerStep J w (.spawn (some e)) { w with pc := .returned (.failed s!"spawn failed: {e.text}") }
  | retry {attempt wake : Nat} : w.pc = .backoff attempt wake → wake ≤ w.now →
      RunnerStep J w .wake { w with pc := .spawn attempt }
  | woken {wake : Nat} : w.pc = .sleep wake → wake ≤ w.now → RunnerStep J w .wake { w with pc := .poll }
  | feed {rest : List UInt8} {n : Nat} : w.pc = .feed rest → w.stdin.readers.any = true → 0 < n → n ≤ rest.length →
      w.stdin.pipe.content.length + n ≤ J.capacity →
      RunnerStep J w (.feed n)
        { w with pc := .feed (rest.drop n), stdin.pipe := w.stdin.pipe.put (rest.take n) }
  | fed {rest : List UInt8} : w.pc = .feed rest → rest = [] ∨ w.stdin.readers.any = false →
      RunnerStep J w .fed { w with stdin.closed := true, started := w.now, pc := .poll }
  | lookFailed {e : String} : w.pc = .poll →
      RunnerStep J w (.look (some e))
        { w with killed := some w.now, lost := true, pc := .reap (.failed s!"wait failed: {e}") }
  | found {status : ExitStatus} : w.pc = .poll → w.child = .zombie status →
      RunnerStep J w (.look none) { w with
        child := .reaped status, pc := .finishOut status.processEnd (w.now + PIPE_EOF_GRACE) }
  | expired : w.pc = .poll → w.child = .running → J.timeout ≤ w.now - w.started →
      RunnerStep J w (.look none) { w with killed := some w.now, pc := .reap .timedOut }
  | nap : w.pc = .poll → w.child = .running → w.now - w.started < J.timeout →
      RunnerStep J w (.look none) { w with pc := .sleep (w.now + WAIT_POLL) }
  | reaped {status : ProcessEnd} {s : ExitStatus} : w.pc = .reap status → w.child = .zombie s →
      RunnerStep J w (.waited true) { w with child := .reaped s, pc := .finishOut status (w.now + PIPE_EOF_GRACE) }
  | unreaped {status : ProcessEnd} : w.pc = .reap status →
      RunnerStep J w (.waited false) { w with lost := true, pc := .finishOut status (w.now + PIPE_EOF_GRACE) }
  | finishOut {status : ProcessEnd} {limit : Nat} : w.pc = .finishOut status limit →
      RunnerStep J w .finish { w with
        stdout.late := !w.stdout.done
        pc := .finishErr status (J.lossy w.stdout.pipe.took) (w.now + PIPE_EOF_GRACE) }
  | finishErr {status : ProcessEnd} {stdout : String} {limit : Nat} : w.pc = .finishErr status stdout limit →
      RunnerStep J w .finish { w with
        stderr.late := !w.stderr.done
        pc := .returned (printed J.isEvent stdout (J.lossy w.stderr.pipe.took) status) }
  | die : w.child = .running → w.killed.isSome = true → RunnerStep J w .die (w.exit .signal)
  | exit {status : ExitStatus} : w.child = .running → RunnerStep J w (.exit status) (w.exit status)
  | stdin {act : InputAct} {stdin : Input} : w.stdin.act act = some stdin →
      RunnerStep J w (.stdin act) { w with stdin }
  | stdout {act : TrackAct} {stdout : Track} : w.stdout.act J.capacity w.pc.reading act = some stdout →
      RunnerStep J w (.stdout act) { w with stdout }
  | stderr {act : TrackAct} {stderr : Track} : w.stderr.act J.capacity w.pc.reading act = some stderr →
      RunnerStep J w (.stderr act) { w with stderr }

variable {J : Job} {w w' : Invoking} {a : RunnerLabel}

theorem runnerStep_cases (h : (runnerLts J).step w a = some w') : RunnerStep J w a w' := by
  replace h : runnerStep J w a = some w' := h
  cases a with
  | tick => exact Option.some.inj h ▸ .tick
  | spawn error =>
    cases hpc : w.pc <;> simp only [runnerStep, hpc] at h <;> try cases h
    case spawn attempt =>
      cases error with
      | none => exact Option.some.inj h ▸ .spawned hpc
      | some e =>
        dsimp only at h
        split at h
        next hbusy => exact Option.some.inj h ▸ .busy hpc hbusy.2
        next => exact Option.some.inj h ▸ .unspawned hpc
  | wake =>
    cases hpc : w.pc <;> simp only [runnerStep, hpc] at h <;> try cases h
    case backoff attempt wake =>
      split at h
      next hwake => exact Option.some.inj h ▸ .retry hpc hwake
      next => cases h
    case sleep wake =>
      split at h
      next hwake => exact Option.some.inj h ▸ .woken hpc hwake
      next => cases h
  | feed n =>
    cases hpc : w.pc <;> simp only [runnerStep, hpc] at h <;> try cases h
    case feed rest =>
      split at h
      next hn => exact Option.some.inj h ▸ .feed hpc hn.1 hn.2.1 hn.2.2.1 hn.2.2.2
      next => cases h
  | fed =>
    cases hpc : w.pc <;> simp only [runnerStep, hpc] at h <;> try cases h
    case feed rest =>
      split at h
      next hfed => exact Option.some.inj h ▸ .fed hpc hfed
      next => cases h
  | look error =>
    cases hpc : w.pc <;> simp only [runnerStep, hpc] at h <;> try cases h
    case poll =>
      cases error with
      | some e => exact Option.some.inj h ▸ .lookFailed hpc
      | none =>
        cases hchild : w.child with
        | running =>
          simp only [hchild] at h
          split at h
          next hlate =>
            obtain rfl := Option.some.inj h
            rw [← hchild]
            exact .expired hpc hchild hlate
          next hearly =>
            obtain rfl := Option.some.inj h
            rw [← hchild]
            exact .nap hpc hchild (Nat.lt_of_not_le hearly)
        | zombie status =>
          simp only [hchild] at h
          exact Option.some.inj h ▸ .found hpc hchild
        | absent | reaped _ =>
          simp only [hchild] at h
          cases h
  | waited ok =>
    cases hpc : w.pc <;> simp only [runnerStep, hpc] at h <;> try cases h
    case reap status =>
      cases ok with
      | false =>
        cases hchild : w.child <;> simp only [hchild] at h <;> exact Option.some.inj h ▸ hchild ▸ .unreaped hpc
      | true =>
        cases hchild : w.child with
        | zombie s =>
          simp only [hchild] at h
          exact Option.some.inj h ▸ .reaped hpc hchild
        | absent | running | reaped _ =>
          simp only [hchild] at h
          cases h
  | finish =>
    cases hpc : w.pc <;> simp only [runnerStep, hpc] at h <;> try cases h
    case finishOut status limit =>
      split at h
      next => exact Option.some.inj h ▸ .finishOut hpc
      next => cases h
    case finishErr status stdout limit =>
      split at h
      next => exact Option.some.inj h ▸ .finishErr hpc
      next => cases h
  | die =>
    simp only [runnerStep] at h
    split at h
    next hdie => exact Option.some.inj h ▸ .die hdie.1 hdie.2
    next => cases h
  | exit status =>
    simp only [runnerStep] at h
    split at h
    next hrun => exact Option.some.inj h ▸ .exit hrun
    next => cases h
  | stdin act =>
    obtain ⟨stdin, hact, rfl⟩ := Option.map_eq_some_iff.1 h
    exact .stdin hact
  | stdout act =>
    obtain ⟨stdout, hact, rfl⟩ := Option.map_eq_some_iff.1 h
    exact .stdout hact
  | stderr act =>
    obtain ⟨stderr, hact, rfl⟩ := Option.map_eq_some_iff.1 h
    exact .stderr hact

/-! ## What was captured -/

/-- The reader is done only with a pipe that nobody can write to any more, unless it failed. -/
def Track.Sound (t : Track) : Prop :=
  t.done = true → t.cut = true ∨ (t.pipe.content = [] ∧ t.writers.any = false)

/-- `bytes` were taken for all that was written to the pipe: all of it, unless its reader failed or was late. -/
structure Track.Captured (t : Track) (bytes : List UInt8) : Prop where
  written : bytes <+: t.pipe.wrote
  settled : t.late = false → t.done = true
  whole : t.late = false → t.cut = false → bytes = t.pipe.wrote ∧ t.writers.any = false

theorem Track.Sound.fresh (writers : Holders) : (Track.fresh writers).Sound := fun hd => by cases hd

theorem Track.Sound.snapshot {t : Track} (h : t.Sound) : { t with late := !t.done }.Captured t.pipe.took := by
  refine ⟨t.pipe.took_prefix, fun hlate => by simpa using hlate, fun hlate hcut => ?_⟩
  rcases h (by simpa using hlate) with hc | ⟨hcontent, hany⟩
  · exact absurd (hcut.symm.trans hc) Bool.false_ne_true
  · exact ⟨Pipe.took_of_drained hcontent, hany⟩

section
variable {t t' : Track} {capacity : Nat} {reading : Bool} {a : TrackAct}

theorem Track.Sound.act (h : t.Sound) (ha : t.act capacity reading a = some t') : t'.Sound := by
  cases a with
  | write bytes =>
    simp only [Track.act] at ha
    split at ha
    case isFalse => cases ha
    case isTrue hw =>
      obtain rfl := Option.some.inj ha
      intro hd
      exact (h hd).imp_right fun hn => absurd (hn.2.symm.trans hw.1) Bool.false_ne_true
  | hold a =>
    obtain ⟨writers, hact, rfl⟩ := Option.map_eq_some_iff.1 ha
    intro hd
    exact (h hd).imp_right fun hn => absurd (hn.2.symm.trans (Holders.act_any hact)) Bool.false_ne_true
  | read n =>
    simp only [Track.act] at ha
    split at ha
    case isFalse => cases ha
    case isTrue hr =>
      obtain rfl := Option.some.inj ha
      intro hd
      exact absurd (hr.2.1.symm.trans hd) Bool.false_ne_true
  | eof =>
    simp only [Track.act] at ha
    split at ha
    case isFalse => cases ha
    case isTrue hr =>
      obtain rfl := Option.some.inj ha
      exact fun _ => .inr hr.2.2
  | readFails =>
    simp only [Track.act] at ha
    split at ha
    case isFalse => cases ha
    case isTrue =>
      obtain rfl := Option.some.inj ha
      exact fun _ => .inl rfl

theorem Track.Captured.act {bytes : List UInt8} (h : t.Captured bytes) (ha : t.act capacity reading a = some t') :
    t'.Captured bytes := by
  -- a pipe that was captured whole has no writer left, and its reader is done
  have ended : t.late = false → t.cut = false → t.writers.any = true → False := fun hl hc hw =>
    absurd ((h.whole hl hc).2.symm.trans hw) Bool.false_ne_true
  have stopped : t.done = false → t.late = false → False := fun hd hl =>
    absurd (hd.symm.trans (h.settled hl)) Bool.false_ne_true
  cases a with
  | write more =>
    simp only [Track.act] at ha
    split at ha
    case isFalse => cases ha
    case isTrue hw =>
      obtain rfl := Option.some.inj ha
      refine ⟨?_, h.settled, fun hl hc => (ended hl hc hw.1).elim⟩
      exact h.written.trans ((Pipe.put_wrote _ _).symm ▸ List.prefix_append _ _)
  | hold a =>
    obtain ⟨writers, hact, rfl⟩ := Option.map_eq_some_iff.1 ha
    exact ⟨h.written, h.settled, fun hl hc => (ended hl hc (Holders.act_any hact)).elim⟩
  | read n =>
    simp only [Track.act] at ha
    split at ha
    case isFalse => cases ha
    case isTrue hr =>
      obtain rfl := Option.some.inj ha
      exact ⟨(Pipe.take_wrote _ _).symm ▸ h.written, h.settled, fun hl _ => (stopped hr.2.1 hl).elim⟩
  | eof =>
    simp only [Track.act] at ha
    split at ha
    case isFalse => cases ha
    case isTrue hr =>
      obtain rfl := Option.some.inj ha
      exact ⟨h.written, fun _ => rfl, fun hl _ => (stopped hr.2.1 hl).elim⟩
  | readFails =>
    simp only [Track.act] at ha
    split at ha
    case isFalse => cases ha
    case isTrue hr =>
      obtain rfl := Option.some.inj ha
      exact ⟨h.written, fun _ => rfl, fun hl _ => (stopped hr.2 hl).elim⟩

end

/-! ## What is returned -/

/-- Killed no earlier than the timeout after its input was closed. -/
def Invoking.Overdue (J : Job) (w : Invoking) : Prop := ∃ t, w.killed = some t ∧ w.started + J.timeout ≤ t

/-- How the process ended, by the account of `status`. -/
def EndedAs (J : Job) (w : Invoking) : ProcessEnd → Prop
  | .code c => w.child = .reaped (.code c) ∧ w.killed = none
  | .signalled => w.child = .reaped .signal ∧ w.killed = none
  | .timedOut => w.Overdue J ∧ ((∃ s, w.child = .reaped s) ∨ w.lost = true)
  | .failed _ => w.killed.isSome = true ∧ w.lost = true

/-- No process was started, for the reason given. -/
def Unstarted (J : Job) (w : Invoking) (i : Invocation) : Prop :=
  w.child = .absent ∧ ∃ reason, i = .failed reason ∧
    ((∃ e : String, J.payload = .error e ∧ reason = s!"could not encode plugin input: {e}") ∨
      ∃ e : String, reason = s!"spawn failed: {e}")

/-- The invocation tells how its process ended and what was captured of its output. -/
def Faithful (J : Job) (w : Invoking) (i : Invocation) : Prop :=
  ∃ out err, i = printed J.isEvent (J.lossy out) (J.lossy err) i.status ∧ EndedAs J w i.status ∧
    w.stdout.Captured out ∧ w.stderr.Captured err

/-- Where the child and the runner stand, by the runner's place. -/
def Stands (J : Job) (w : Invoking) : RunnerPc → Prop
  | .spawn _ | .backoff _ _ => w.child = .absent ∧ w.killed = none
  | .feed _ => w.child.live ∧ w.killed = none
  | .poll | .sleep _ => w.child.live ∧ w.killed = none ∧ w.started ≤ w.now
  | .reap status => w.child.live ∧ w.killed.isSome = true ∧
      ((status = .timedOut ∧ w.Overdue J) ∨ ((∃ e, status = .failed e) ∧ w.lost = true))
  | .finishOut status _ => EndedAs J w status
  | .finishErr status text _ => EndedAs J w status ∧ ∃ out, text = J.lossy out ∧ w.stdout.Captured out
  | .returned i => Unstarted J w i ∨ Faithful J w i

/-- The runner itself has done nothing. -/
structure Aside (w w' : Invoking) : Prop where
  pc : w'.pc = w.pc
  started : w'.started = w.started
  killed : w'.killed = w.killed
  lost : w'.lost = w.lost
  now : w.now ≤ w'.now
  child : w'.child = w.child ∨ (w.child = .running ∧ ∃ s, w'.child = .zombie s)
  stdout : ∀ bytes, w.stdout.Captured bytes → w'.stdout.Captured bytes
  stderr : ∀ bytes, w.stderr.Captured bytes → w'.stderr.Captured bytes

theorem Aside.keeps (h : Aside w w') {c : Child} (hc : w.child = c) (hrun : c ≠ .running) : w'.child = c := by
  rcases h.child with he | ⟨hr, -⟩
  · exact he.trans hc
  · exact absurd (hc.symm.trans hr) hrun

theorem Aside.live (h : Aside w w') (hl : w.child.live) : w'.child.live := by
  rcases h.child with he | ⟨-, s, hs⟩
  · exact he ▸ hl
  · exact hs ▸ trivial

theorem Aside.overdue (h : Aside w w') (ho : w.Overdue J) : w'.Overdue J := by
  obtain ⟨t, hk, ht⟩ := ho
  exact ⟨t, h.killed.trans hk, h.started ▸ ht⟩

theorem Aside.ended (h : Aside w w') {status : ProcessEnd} (he : EndedAs J w status) : EndedAs J w' status := by
  cases status with
  | code c => exact ⟨h.keeps he.1 (by simp), h.killed.trans he.2⟩
  | signalled => exact ⟨h.keeps he.1 (by simp), h.killed.trans he.2⟩
  | timedOut =>
    refine ⟨h.overdue he.1, ?_⟩
    rcases he.2 with ⟨s, hs⟩ | hl
    · exact .inl ⟨s, h.keeps hs (by simp)⟩
    · exact .inr (h.lost.trans hl)
  | failed e => exact ⟨h.killed ▸ he.1, h.lost.trans he.2⟩

theorem Aside.phase (h : Aside w w') (hp : Stands J w w.pc) : Stands J w' w'.pc := by
  rw [h.pc]
  cases hpc : w.pc with
  | spawn | backoff =>
    rw [hpc] at hp
    exact ⟨h.keeps hp.1 (by simp), h.killed.trans hp.2⟩
  | feed rest =>
    rw [hpc] at hp
    exact ⟨h.live hp.1, h.killed.trans hp.2⟩
  | poll | sleep =>
    rw [hpc] at hp
    exact ⟨h.live hp.1, h.killed.trans hp.2.1, h.started ▸ hp.2.2.trans h.now⟩
  | reap status =>
    rw [hpc] at hp
    obtain ⟨hl, hk, hs⟩ := hp
    refine ⟨h.live hl, h.killed ▸ hk, hs.imp (fun ht => ?_) fun hf => ?_⟩
    · exact ⟨ht.1, h.overdue ht.2⟩
    · exact ⟨hf.1, h.lost.trans hf.2⟩
  | finishOut status limit =>
    rw [hpc] at hp
    exact h.ended hp
  | finishErr status text limit =>
    rw [hpc] at hp
    obtain ⟨he, out, rfl, hout⟩ := hp
    exact ⟨h.ended he, out, rfl, h.stdout out hout⟩
  | returned i =>
    rw [hpc] at hp
    rcases hp with ⟨hc, hr⟩ | ⟨out, err, hi, he, hout, herr⟩
    · exact .inl ⟨h.keeps hc (by simp), hr⟩
    · exact .inr ⟨out, err, hi, h.ended he, h.stdout out hout, h.stderr err herr⟩

theorem Aside.tick (w : Invoking) : Aside w { w with now := w.now + 1 } :=
  ⟨rfl, rfl, rfl, rfl, Nat.le_succ _, .inl rfl, fun _ h => h, fun _ h => h⟩

theorem Aside.onStdin (w : Invoking) (stdin : Input) : Aside w { w with stdin } :=
  ⟨rfl, rfl, rfl, rfl, le_refl _, .inl rfl, fun _ h => h, fun _ h => h⟩

theorem Aside.onStdout {capacity : Nat} {reading : Bool} {a : TrackAct} {stdout : Track}
    (ha : w.stdout.act capacity reading a = some stdout) : Aside w { w with stdout } :=
  ⟨rfl, rfl, rfl, rfl, le_refl _, .inl rfl, fun _ h => h.act ha, fun _ h => h⟩

theorem Aside.onStderr {capacity : Nat} {reading : Bool} {a : TrackAct} {stderr : Track}
    (ha : w.stderr.act capacity reading a = some stderr) : Aside w { w with stderr } :=
  ⟨rfl, rfl, rfl, rfl, le_refl _, .inl rfl, fun _ h => h, fun _ h => h.act ha⟩

theorem Aside.exit (hrun : w.child = .running) (s : ExitStatus) : Aside w (w.exit s) where
  pc := rfl
  started := rfl
  killed := rfl
  lost := rfl
  now := le_refl _
  child := .inr ⟨hrun, s, rfl⟩
  stdout _ h := ⟨h.written, h.settled, fun hl hc => ⟨(h.whole hl hc).1, Holders.exit_any (h.whole hl hc).2⟩⟩
  stderr _ h := ⟨h.written, h.settled, fun hl hc => ⟨(h.whole hl hc).1, Holders.exit_any (h.whole hl hc).2⟩⟩

/-! ## Over a run -/

structure Invoking.Sound (J : Job) (w : Invoking) : Prop where
  stdout : w.stdout.Sound
  stderr : w.stderr.Sound
  phase : Stands J w w.pc

theorem Track.Sound.exit {t : Track} (h : t.Sound) : { t with writers := t.writers.exit }.Sound :=
  fun hd => (h hd).imp_right fun hn => ⟨hn.1, Holders.exit_any hn.2⟩

theorem Invoking.Sound.start (J : Job) : (Invoking.start J).Sound J := by
  refine ⟨.fresh _, .fresh _, ?_⟩
  unfold Invoking.start
  cases hp : J.payload with
  | error e => exact .inl ⟨rfl, _, rfl, .inl ⟨e, hp, rfl⟩⟩
  | ok bytes => exact ⟨rfl, rfl⟩

theorem Invoking.Sound.step (h : w.Sound J) (hs : (runnerLts J).step w a = some w') : w'.Sound J := by
  obtain ⟨hout, herr, hphase⟩ := h
  cases runnerStep_cases hs with
  | tick => exact ⟨hout, herr, (Aside.tick w).phase hphase⟩
  | spawned hpc =>
    rw [hpc] at hphase
    exact ⟨.fresh _, .fresh _, trivial, hphase.2⟩
  | busy hpc =>
    rw [hpc] at hphase
    exact ⟨hout, herr, hphase⟩
  | unspawned hpc =>
    rw [hpc] at hphase
    exact ⟨hout, herr, .inl ⟨hphase.1, _, rfl, .inr ⟨_, rfl⟩⟩⟩
  | retry hpc | woken hpc =>
    rw [hpc] at hphase
    exact ⟨hout, herr, hphase⟩
  | feed hpc =>
    rw [hpc] at hphase
    exact ⟨hout, herr, hphase⟩
  | fed hpc =>
    rw [hpc] at hphase
    exact ⟨hout, herr, hphase.1, hphase.2, le_refl _⟩
  | lookFailed hpc =>
    rw [hpc] at hphase
    exact ⟨hout, herr, hphase.1, rfl, .inr ⟨⟨_, rfl⟩, rfl⟩⟩
  | @found status hpc hchild =>
    rw [hpc] at hphase
    refine ⟨hout, herr, ?_⟩
    cases status <;> exact ⟨rfl, hphase.2.1⟩
  | expired hpc hchild hlate =>
    rw [hpc] at hphase
    have := hphase.2.2
    exact ⟨hout, herr, hphase.1, rfl, .inl ⟨rfl, w.now, rfl, by dsimp only; omega⟩⟩
  | nap hpc =>
    rw [hpc] at hphase
    exact ⟨hout, herr, hphase⟩
  | @reaped status s hpc =>
    rw [hpc] at hphase
    obtain ⟨-, hk, ⟨rfl, ht⟩ | ⟨⟨e, rfl⟩, hl⟩⟩ := hphase
    · exact ⟨hout, herr, ht, .inl ⟨s, rfl⟩⟩
    · exact ⟨hout, herr, hk, hl⟩
  | unreaped hpc =>
    rw [hpc] at hphase
    obtain ⟨-, hk, ⟨rfl, ht⟩ | ⟨⟨e, rfl⟩, hl⟩⟩ := hphase
    · exact ⟨hout, herr, ht, .inr rfl⟩
    · exact ⟨hout, herr, hk, rfl⟩
  | finishOut hpc =>
    rw [hpc] at hphase
    exact ⟨hout, herr, hphase, _, rfl, hout.snapshot⟩
  | finishErr hpc =>
    rw [hpc] at hphase
    obtain ⟨he, out, rfl, hcap⟩ := hphase
    exact ⟨hout, herr, .inr ⟨out, _, rfl, he, hcap, herr.snapshot⟩⟩
  | die hrun => exact ⟨hout.exit, herr.exit, (Aside.exit hrun _).phase hphase⟩
  | exit hrun => exact ⟨hout.exit, herr.exit, (Aside.exit hrun _).phase hphase⟩
  | stdin => exact ⟨hout, herr, (Aside.onStdin w _).phase hphase⟩
  | stdout hact => exact ⟨hout.act hact, herr, (Aside.onStdout hact).phase hphase⟩
  | stderr hact => exact ⟨hout, herr.act hact, (Aside.onStderr hact).phase hphase⟩

theorem reach_invoking (h : Reach (runnerLts J) w) : w.Sound J :=
  h.inv (fun _ hw => hw ▸ .start J) fun _ _ _ hs hstep => hs.step hstep

/-- **What is returned is what happened.** Either no process was started, and the invocation says why; or its lines and
its stderr are those of a prefix of what was written to the pipe, which is all of it unless the reader failed or was
given up after `PIPE_EOF_GRACE`; an exit code is that of the process, which was reaped and not killed; and a timeout is
that of a process killed no earlier than the timeout after its input was closed, and reaped unless `wait` failed. So the
machine hears of a command that finished only where the plugin ended by itself. -/
theorem invoke_faithful (h : Reach (runnerLts J) w) {i : Invocation} (hret : w.pc = .returned i) :
    (Unstarted J w i ∨ Faithful J w i) ∧
      ∀ (X : Ext) (timeoutSecs : UInt64) (command : PluginCommand) (d : Disposition),
        invocationEvent X timeoutSecs command i.status = .commandFinished command d →
          ∃ c, classifyExit c = d ∧ w.child = .reaped (.code c) ∧ w.killed = none := by
  have hphase := (reach_invoking h).phase
  rw [hret] at hphase
  refine ⟨hphase, fun X timeoutSecs command d hev => ?_⟩
  rcases hphase with ⟨-, reason, rfl, -⟩ | ⟨out, err, -, hended, -, -⟩
  · cases hev
  · cases hstatus : i.status with
    | code c =>
      rw [hstatus] at hev hended
      obtain ⟨-, rfl⟩ := Event.commandFinished.inj hev
      exact ⟨c, rfl, hended⟩
    | timedOut | signalled | failed =>
      rw [hstatus] at hev
      cases hev

def plainJob : Job where
  payload := .ok [0x7b, 0x7d]
  timeout := 100
  capacity := 65536
  isEvent _ := false
  lossy bytes := String.ofList (bytes.map fun b => Char.ofNat b.toNat)

/-- A plugin that reads its input, prints `ok` and exits with 0. -/
def plainInvoke : List RunnerLabel :=
  [.spawn none, .feed 2, .fed, .look none, .stdin (.consume 2), .stdin .eof, .stdout (.write [0x6f, 0x6b]),
    .stdout (.read 2), .exit (.code 0), .stdout .eof] ++ List.replicate 25 .tick ++
  [.wake, .look none, .finish, .stderr .eof, .finish]

theorem invoke_faithful_sample : ∃ w i, Reach (runnerLts plainJob) w ∧ w.pc = .returned i ∧ i.status = .code 0 ∧
    (Unstarted plainJob w i ∨ Faithful plainJob w i) := by
  obtain ⟨w, hreach, hw⟩ := reach_of_run (L := runnerLts plainJob)
    (fun w => match w.pc with | .returned i => i.status == .code 0 | _ => false) rfl plainInvoke rfl
  cases hpc : w.pc with
  | returned i =>
    rw [hpc] at hw
    exact ⟨w, i, hreach, hpc, by simpa using hw, (invoke_faithful hreach hpc).1⟩
  | _ =>
    rw [hpc] at hw
    cases hw

/-! ## The plugin's input -/

/-- What the runner has written to stdin, and what is known of it once it is closed. -/
structure Supplied (J : Job) (w : Invoking) : Prop where
  written : w.stdin.pipe.wrote <+: J.bytes
  feeding : ∀ rest, w.pc = .feed rest → w.stdin.closed = false ∧ w.stdin.pipe.wrote ++ rest = J.bytes
  closed : w.stdin.closed = true → w.stdin.pipe.wrote = J.bytes ∨ w.stdin.readers.any = false
  ended : w.stdin.ended = true → w.stdin.pipe.took = J.bytes

/-- A step that leaves stdin alone, outside the feeding. -/
theorem Supplied.still (h : Supplied J w) (hstdin : w'.stdin = w.stdin) (hpc : ∀ rest, w'.pc ≠ .feed rest) :
    Supplied J w' where
  written := hstdin ▸ h.written
  feeding rest hf := absurd hf (hpc rest)
  closed := hstdin ▸ h.closed
  ended := hstdin ▸ h.ended

theorem Supplied.exit (h : Supplied J w) (s : ExitStatus) : Supplied J (w.exit s) where
  written := h.written
  feeding := h.feeding
  closed hc := (h.closed hc).imp_right Holders.exit_any
  ended := h.ended

theorem Supplied.stdin (h : Supplied J w) {act : InputAct} {stdin : Input} (ha : w.stdin.act act = some stdin) :
    Supplied J { w with stdin } := by
  cases act with
  | consume n =>
    simp only [Input.act] at ha
    split at ha
    case isFalse => cases ha
    case isTrue hn =>
      obtain rfl := Option.some.inj ha
      have hwrote : (w.stdin.pipe.take n).wrote = w.stdin.pipe.wrote := Pipe.take_wrote _ _
      refine ⟨hwrote ▸ h.written, fun rest hf => ?_, fun hc => hwrote ▸ h.closed hc, fun he => ?_⟩
      · exact ⟨(h.feeding rest hf).1, hwrote ▸ (h.feeding rest hf).2⟩
      · -- the end is read only where nothing is left
        have hle := h.written.length_le
        rw [← h.ended he, Pipe.wrote, List.length_append] at hle
        omega
  | eof =>
    simp only [Input.act] at ha
    split at ha
    case isFalse => cases ha
    case isTrue he =>
      obtain rfl := Option.some.inj ha
      refine ⟨h.written, h.feeding, h.closed, fun _ => ?_⟩
      rcases h.closed he.2.1 with hw | hn
      · exact (Pipe.took_of_drained he.2.2).trans hw
      · exact absurd (hn.symm.trans he.1) Bool.false_ne_true
  | hold a =>
    obtain ⟨readers, hact, rfl⟩ := Option.map_eq_some_iff.1 ha
    refine ⟨h.written, h.feeding, fun hc => (h.closed hc).imp_right fun hn => ?_, h.ended⟩
    exact absurd (hn.symm.trans (Holders.act_any hact)) Bool.false_ne_true

theorem Supplied.step (h : Supplied J w) (hs : (runnerLts J).step w a = some w') : Supplied J w' := by
  cases runnerStep_cases hs with
  | tick => exact ⟨h.written, h.feeding, h.closed, h.ended⟩
  | spawned hpc =>
    refine ⟨List.nil_prefix, fun rest hf => ?_, fun hc => (by cases hc), fun he => (by cases he)⟩
    exact ⟨rfl, (RunnerPc.feed.inj hf).symm⟩
  | @feed rest n hpc hany hpos hn hroom =>
    obtain ⟨hopen, hrest⟩ := h.feeding rest hpc
    have hwrote : (w.stdin.pipe.put (rest.take n)).wrote ++ rest.drop n = J.bytes := by
      rw [Pipe.put_wrote, List.append_assoc, List.take_append_drop, hrest]
    refine ⟨⟨_, hwrote⟩, fun more hf => ?_, fun hc => ?_, h.ended⟩
    · exact ⟨hopen, RunnerPc.feed.inj hf ▸ hwrote⟩
    · exact absurd (hopen.symm.trans hc) Bool.false_ne_true
  | @fed rest hpc hfed =>
    obtain ⟨hopen, hrest⟩ := h.feeding rest hpc
    refine ⟨h.written, fun rest hf => (by cases hf), fun _ => hfed.imp_left fun hnil => ?_, h.ended⟩
    rw [hnil, List.append_nil] at hrest
    exact hrest
  | die | exit => exact h.exit _
  | stdin hact => exact h.stdin hact
  | stdout hact | stderr hact => exact ⟨h.written, h.feeding, h.closed, h.ended⟩
  | _ => exact h.still rfl fun rest hf => by cases hf

theorem Supplied.start (J : Job) : Supplied J (.start J) := by
  refine ⟨List.nil_prefix, fun rest hf => ?_, fun hc => (by cases hc), fun he => (by cases he)⟩
  unfold Invoking.start at hf
  cases hp : J.payload with
  | error e =>
    rw [hp] at hf
    cases hf
  | ok bytes =>
    rw [hp] at hf
    cases hf

/-- **The end of its input means that it has all of it.** What the plugin and its heirs read from stdin is, in order, a
prefix of the encoded input, and one of them reads the end only when all of the input has been read. -/
theorem input_whole (h : Reach (runnerLts J) w) :
    w.stdin.pipe.took <+: J.bytes ∧ (w.stdin.ended = true → w.stdin.pipe.took = J.bytes) :=
  have hs : Supplied J w := h.inv (fun _ hw => hw ▸ .start J) fun _ _ _ hi hstep => hi.step hstep
  ⟨w.stdin.pipe.took_prefix.trans hs.written, hs.ended⟩

theorem input_whole_sample : ∃ w, Reach (runnerLts plainJob) w ∧ w.stdin.ended = true ∧
    w.stdin.pipe.took = [0x7b, 0x7d] := by
  obtain ⟨w, hreach, hw⟩ := reach_of_run (L := runnerLts plainJob) (·.stdin.ended) rfl plainInvoke rfl
  exact ⟨w, hreach, hw, (input_whole hreach).2 hw⟩

end FaultForge.Agent
