import FaultForge.Agent.Instance
import FaultForge.Agent.ReplayCourse

/-!
# When replay says `ABORTED` (supervisor.rs:691-767, session.rs:111-130)

The spec marks a replayed instance "`ABORTED` if recovery completes before its `deadline_unix`, or `ERROR` if the
deadline has already passed". `run_agent` reads the clock once, before the first entry, and `replay_entry` compares that
reading with the deadline before it invokes anything; the recoveries of the entry and of those before it take their time
afterwards. So the report is right exactly where that time does not reach over the deadline (`aborted_in_time`).

The clock is an oracle, `Answer.now`: a recovery has completed at the reading taken when its last invocation returned.
-/
namespace FaultForge.Agent

section
variable (X : Ext) (timeoutSecs : UInt64) (entry : JournalEntry) (now : Int) (env : Nat → Answer) (result : Replayed)

def Effect.isInvoke : Effect → Bool
  | .invoke .. => true
  | _ => false

/-- The invocations of a replay, with what they answered, oldest first. -/
def replayAttempts : List (Effect × Answer) :=
  (replayEntryPerformed X timeoutSecs entry now env result).filter fun p => p.1.isInvoke

/-- When the recovery of the entry has completed, unix milliseconds. -/
def completedMs : Int := ((replayAttempts X timeoutSecs entry now env result).getLast?.map fun p => p.2.now).getD now

/-- A recovery command has failed twice. -/
def RecoveryFailed : Prop := RecoveryTried X timeoutSecs entry (replayAttempts X timeoutSecs entry now env result) false

end

/-- The replay of the entry, entered with `before`, reports `state` for it. -/
def Reports (entry : JournalEntry) (before after : Replayed) (state : InstanceState) : Prop :=
  ∃ reason ts, entry.status state reason ts ∈ after.frames.drop before.frames.length

/-- `ABORTED` is reported only for a recovery completed before the deadline, and `ERROR` for one completed after it. -/
structure InTime (entry : JournalEntry) (completed : Int) (reports : InstanceState → Prop) : Prop where
  aborted : reports .aborted → completed < entry.deadlineUnix * 1000
  error : entry.deadlineUnix * 1000 ≤ completed → reports .error

section
variable {X : Ext} {timeoutSecs : UInt64} {entry : JournalEntry} {now : Int} {env : Nat → Answer} {result : Replayed}

/-! ## The attempts of a recovery -/

theorem Tried.invokes {command : PluginCommand} {log : List (Effect × Answer)} {ok : Bool}
    (h : Tried X timeoutSecs entry command log ok) : ∀ p ∈ log, p.1.isInvoke = true := by
  cases h <;> simp [Effect.isInvoke]

theorem RecoveryTried.invokes {attempts : List (Effect × Answer)} {ok : Bool}
    (h : RecoveryTried X timeoutSecs entry attempts ok) : ∀ p ∈ attempts, p.1.isInvoke = true := by
  cases h with
  | aborting habort => exact habort.invokes
  | cleaning habort hclean =>
    intro p hm
    rcases List.mem_append.1 hm with hm | hm
    · exact habort.invokes p hm
    · exact hclean.invokes p hm

theorem EntryReplayed.attempts_eq {attempts : List (Effect × Answer)} {ok : Bool} {final : Replay}
    (h : EntryReplayed X timeoutSecs entry now env result attempts ok final) :
    replayAttempts X timeoutSecs entry now env result = attempts := by
  obtain ⟨first, mark, remove, last, reason, telemetry, -, hperformed, -⟩ := h.reported
  have hattempts := List.filter_eq_self.2 h.tried.invokes
  rw [replayAttempts, hperformed]
  cases ok <;> simp only [List.cons_append, List.filter_cons, List.filter_append, hattempts] <;>
    simp [Effect.isInvoke]

/-- The last attempt of a command says how the command ended. -/
theorem Tried.last {command : PluginCommand} {log : List (Effect × Answer)} {ok : Bool}
    (h : Tried X timeoutSecs entry command log ok) :
    ∃ p, log.getLast? = some p ∧ p.1 = .invoke command .runtime ∧
      (ok = true ↔ Succeeds X timeoutSecs entry command p.2) := by
  cases h with
  | first a ha => exact ⟨_, rfl, rfl, by simp [ha]⟩
  | second a b _ hb => exact ⟨_, rfl, rfl, by simp [hb]⟩
  | failed a b _ hb => exact ⟨_, rfl, rfl, by simp [hb]⟩

/-- So the attempts say how the recovery ended. -/
theorem RecoveryTried.exclusive {attempts : List (Effect × Answer)}
    (hok : RecoveryTried X timeoutSecs entry attempts true) (hfail : RecoveryTried X timeoutSecs entry attempts false) :
    False := by
  cases hok with
  | @cleaning aborts cleanups _ _ hclean =>
    obtain ⟨p, hp, hcommand, hsucceeds⟩ := hclean.last
    have hlast : (aborts ++ cleanups).getLast? = some p := by simp [List.getLast?_append, hp]
    generalize aborts ++ cleanups = attempts at hfail hlast
    cases hfail with
    | aborting habort =>
      obtain ⟨q, hq, habort', -⟩ := habort.last
      obtain rfl : p = q := Option.some.inj (hlast.symm.trans hq)
      simp [hcommand] at habort'
    | @cleaning aborts' cleanups' _ _ hclean' =>
      obtain ⟨q, hq, -, hfails⟩ := hclean'.last
      have hlast' : (aborts' ++ cleanups').getLast? = some q := by simp [List.getLast?_append, hq]
      obtain rfl : p = q := Option.some.inj (hlast.symm.trans hlast')
      exact absurd (hfails.2 (hsucceeds.1 rfl)) (by simp)

theorem EntryReplayed.failed_iff {attempts : List (Effect × Answer)} {ok : Bool} {final : Replay}
    (h : EntryReplayed X timeoutSecs entry now env result attempts ok final) :
    RecoveryFailed X timeoutSecs entry now env result ↔ ok = false := by
  rw [RecoveryFailed, h.attempts_eq]
  constructor
  · intro hfail
    cases ok with
    | false => rfl
    | true => exact (h.tried.exclusive hfail).elim
  · rintro rfl
    exact h.tried

/-! ## What is reported -/

theorem JournalEntry.status_state {state state' : InstanceState} {reason reason' : Option String} {ts ts' : Int}
    (h : entry.status state reason ts = entry.status state' reason' ts') : state = state' := by
  simp only [JournalEntry.status, statusFrame, AgentMessage.instanceStatus.injEq, InstanceStatus.mk.injEq] at h
  have hwire := fromWireI32_toWireI32 state'
  rw [← h.2.1, fromWireI32_toWireI32] at hwire
  exact Except.ok.inj hwire

theorem JournalEntry.status_ne_taint (entry : JournalEntry) (state : InstanceState) (reason : Option String) (ts : Int)
    (current : Option TaintRecord) (nowMs : Int) : entry.status state reason ts ≠ taintStatusFrame current nowMs := by
  cases current <;> simp [JournalEntry.status, statusFrame, taintStatusFrame]

/-- The frames of the replay end with the terminal status, and tell no other one. -/
theorem EntryReplayed.frames {attempts : List (Effect × Answer)} {ok : Bool} {final : Replay}
    (h : EntryReplayed X timeoutSecs entry now env result attempts ok final) :
    ∃ frames reason ts,
      final.result.frames = result.frames ++ (frames ++ [entry.status final.state.instanceState reason ts]) ∧
      ∀ state reason ts, entry.status state reason ts ∈ frames → state = .recovering := by
  obtain ⟨first, mark, remove, last, reason, telemetry, htell, -, -, -, hframes⟩ := h.reported
  obtain ⟨settled, hsettled, hframes⟩ : ∃ settled, (∀ state reason ts, entry.status state reason ts ∉ settled) ∧
      final.result.frames = result.frames ++ entry.status .recovering (some REPLAY_REASON) first.now :: telemetry ++
        settled ++ [entry.status final.state.instanceState (some reason) last.now] := by
    refine ⟨_, ?_, hframes⟩
    intro state reason' ts hm
    cases ok with
    | true => simp at hm
    | false => exact entry.status_ne_taint _ _ _ _ _ (List.mem_singleton.1 hm)
  refine ⟨entry.status .recovering (some REPLAY_REASON) first.now :: telemetry ++ settled, some reason, last.now,
    ?_, ?_⟩
  · rw [hframes]
    simp only [List.append_assoc, List.cons_append]
  · intro state reason' ts hm
    rcases List.mem_append.1 hm with hm | hm
    · rcases List.mem_cons.1 hm with hm | hm
      · exact JournalEntry.status_state hm
      · obtain ⟨line, hline⟩ := htell _ hm
        cases hline
    · exact absurd hm (hsettled state reason' ts)

theorem EntryReplayed.reports_iff {attempts : List (Effect × Answer)} {ok : Bool} {final : Replay}
    (h : EntryReplayed X timeoutSecs entry now env result attempts ok final) (state : InstanceState)
    (hst : state ≠ .recovering) : Reports entry result final.result state ↔ final.state.instanceState = state := by
  obtain ⟨frames, reason, ts, hframes, honly⟩ := h.frames
  rw [Reports, hframes, List.drop_left]
  constructor
  · rintro ⟨reason', ts', hm⟩
    rcases List.mem_append.1 hm with hm | hm
    · exact absurd (honly _ _ _ hm) hst
    · exact (JournalEntry.status_state (List.mem_singleton.1 hm)).symm
  · rintro rfl
    exact ⟨reason, ts, by simp⟩

/-! ## One entry against the clock -/

theorem EntryReplayed.in_time_iff {attempts : List (Effect × Answer)} {ok : Bool} {final : Replay}
    (h : EntryReplayed X timeoutSecs entry now env result attempts ok final) (completed : Int) :
    InTime entry completed (Reports entry result final.result) ↔
      entry.deadlineUnix ≤ now.tdiv 1000 ∨ completed < entry.deadlineUnix * 1000 ∨
        RecoveryFailed X timeoutSecs entry now env result := by
  have haborted := h.reports_iff .aborted (by simp)
  have herror := h.reports_iff .error (by simp)
  have hstate : final.state.instanceState = .error ∧ (entry.deadlineUnix ≤ now.tdiv 1000 ∨ ok = false) ∨
      final.state.instanceState = .aborted ∧ now.tdiv 1000 < entry.deadlineUnix ∧ ok = true := by
    rw [h.state]
    by_cases hnow : now.tdiv 1000 < entry.deadlineUnix
    · cases ok <;> simp [replayOutcome, hnow, Outcome.state, State.instanceState]
    · have hlate : entry.deadlineUnix ≤ now.tdiv 1000 := by omega
      cases ok <;> simp [replayOutcome, hnow, hlate, Outcome.state, State.instanceState]
  rw [h.failed_iff]
  constructor
  · rintro ⟨habort, -⟩
    rcases hstate with ⟨-, hlate | hfail⟩ | ⟨hst, -, -⟩
    · exact .inl hlate
    · exact .inr (.inr hfail)
    · exact .inr (.inl (habort (haborted.2 hst)))
  · intro hwhen
    rcases hstate with ⟨hst, -⟩ | ⟨hst, hnow, hok⟩
    · constructor
      · intro hab
        exact absurd (hst.symm.trans (haborted.1 hab)) (by simp)
      · intro _
        exact herror.2 hst
    · -- `ABORTED`: the reading at startup is before the deadline, and the recovery has succeeded
      have hearly : completed < entry.deadlineUnix * 1000 := by
        rcases hwhen with hlate | hearly | hfail
        · omega
        · exact hearly
        · exact absurd (hok.symm.trans hfail) (by simp)
      constructor
      · intro _
        exact hearly
      · intro hlate
        omega

/-! ## The whole journal -/

/-- The entries before the `k`-th, replayed. -/
def replayedBefore (X : Ext) (timeoutSecs : UInt64) (now : Int) (entries : List (Except String JournalEntry))
    (env : Nat → Nat → Answer) (journal : AList fun _ : String => JournalEntry) (taint : Option TaintRecord) (k : Nat) :
    Replayed :=
  replayEntries X timeoutSecs now (entries.take k) env ⟨journal, taint, [], []⟩

theorem replayEntries_append (first rest : List (Except String JournalEntry)) (env : Nat → Nat → Answer)
    (r : Replayed) :
    replayEntries X timeoutSecs now (first ++ rest) env r =
      replayEntries X timeoutSecs now rest (fun i => env (i + first.length))
        (replayEntries X timeoutSecs now first env r) := by
  induction first generalizing env r with
  | nil => rfl
  | cons item first ih => cases item <;> exact ih _ _

theorem replayEntries_appends (entries : List (Except String JournalEntry)) (env : Nat → Nat → Answer) (r : Replayed) :
    r.frames <+: (replayEntries X timeoutSecs now entries env r).frames := by
  induction entries generalizing env r with
  | nil => exact List.prefix_refl _
  | cons item rest ih =>
    cases item with
    | ok entry =>
      obtain ⟨attempts, ok, h⟩ := replayEntry_course X timeoutSecs entry now (env 0) r
      obtain ⟨frames, reason, ts, hframes, -⟩ := h.frames
      exact List.IsPrefix.trans ⟨_, hframes.symm⟩ (ih _ _)
    | error e =>
      refine List.IsPrefix.trans ?_ (ih _ _)
      have hmark : ∀ record error, (r.mark record error).frames = r.frames := by
        intro record error
        unfold Replayed.mark
        split <;> rfl
      simp only [hmark]
      exact List.prefix_append _ _

/-- **Each entry against the clock.** The replay of the `k`-th entry reports in time exactly if its deadline had passed
when the clock was read, or its recovery completed before the deadline, or a command of it failed twice. -/
theorem aborted_in_time (X : Ext) (timeoutSecs : UInt64) (now : Int) (entries : List (Except String JournalEntry))
    (env : Nat → Nat → Answer) (journal : AList fun _ : String => JournalEntry) (taint : Option TaintRecord) (k : Nat)
    (entry : JournalEntry) (hentry : entries[k]? = some (.ok entry)) :
    let before := replayedBefore X timeoutSecs now entries env journal taint k
    let after := (replayEntry X timeoutSecs entry now (env k) before).result
    after.frames <+: (replayJournal X timeoutSecs now (.ok entries) env journal taint).frames ∧
    (InTime entry (completedMs X timeoutSecs entry now (env k) before) (Reports entry before after) ↔
      entry.deadlineUnix ≤ now.tdiv 1000 ∨
      completedMs X timeoutSecs entry now (env k) before < entry.deadlineUnix * 1000 ∨
      RecoveryFailed X timeoutSecs entry now (env k) before) := by
  intro before after
  constructor
  · obtain ⟨hlt, hget⟩ := List.getElem?_eq_some_iff.1 hentry
    have hsplit : entries = entries.take k ++ .ok entry :: entries.drop (k + 1) := by
      rw [← hget, List.getElem_cons_drop, List.take_append_drop]
    have hlen : (entries.take k).length = k := List.length_take_of_le (Nat.le_of_lt hlt)
    have hwhole : (replayJournal X timeoutSecs now (.ok entries) env journal taint).frames =
        (replayEntries X timeoutSecs now (entries.drop (k + 1)) (fun i => env (i + 1 + k)) after).frames := by
      show (replayEntries X timeoutSecs now entries env _).frames = _
      conv_lhs => rw [hsplit, replayEntries_append, hlen]
      simp only [replayEntries, Nat.zero_add]
      rfl
    rw [hwhole]
    exact replayEntries_appends _ _ _
  · obtain ⟨attempts, ok, h⟩ := replayEntry_course X timeoutSecs entry now (env k) before
    exact h.in_time_iff _

end

/-- The dead-man of this entry is at 100000 ms. -/
def lateEntry : JournalEntry where
  version := JOURNAL_VERSION
  instanceId := sampleRun.instanceId
  pluginName := sampleRun.pluginName
  pluginVersion := sampleRun.pluginVersion
  pluginDigest := sampleRun.pluginDigest
  params := ∅
  startedUnixMs := 30000
  durationSecs := 60
  graceSecs := 10
  deadlineUnix := 100

/-- Both commands succeed, `abort` before `done`, `cleanup` at `done`. -/
def lateAnswers (done : Int) : Nat → Nat → Answer := fun _ turn =>
  ⟨if turn ≤ 12 then done else 99500, .ok samplePlugin, ⟨[], "", .code 0⟩, none⟩

/-- The agent is back at 99000 ms, in time; `cleanup` returns at 101000 ms, a second after the dead-man. -/
theorem aborted_late :
    let before := replayedBefore plainExt 10 99000 [.ok lateEntry] (lateAnswers 101000) ∅ none 0
    let after := (replayEntry plainExt 10 lateEntry 99000 (lateAnswers 101000 0) before).result
    completedMs plainExt 10 lateEntry 99000 (lateAnswers 101000 0) before = 101000 ∧
      Reports lateEntry before after .aborted ∧
      ¬ InTime lateEntry (completedMs plainExt 10 lateEntry 99000 (lateAnswers 101000 0) before)
        (Reports lateEntry before after) := by
  intro before after
  have hcompleted : completedMs plainExt 10 lateEntry 99000 (lateAnswers 101000 0) before = 101000 := by decide
  have hreports : Reports lateEntry before after .aborted := ⟨some REPLAY_REASON, 101000, by decide⟩
  refine ⟨hcompleted, hreports, ?_⟩
  intro hin
  have hearly := hin.aborted hreports
  rw [hcompleted] at hearly
  exact absurd hearly (by decide)

theorem aborted_in_time_sample :
    let before := replayedBefore plainExt 10 99000 [.ok lateEntry] (lateAnswers 99900) ∅ none 0
    let after := (replayEntry plainExt 10 lateEntry 99000 (lateAnswers 99900 0) before).result
    InTime lateEntry (completedMs plainExt 10 lateEntry 99000 (lateAnswers 99900 0) before)
      (Reports lateEntry before after) :=
  (aborted_in_time plainExt 10 99000 [.ok lateEntry] (lateAnswers 99900) ∅ none 0 lateEntry rfl).2.2
    (.inr (.inl (by decide)))

end FaultForge.Agent
