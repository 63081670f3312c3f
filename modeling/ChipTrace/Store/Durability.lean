/-
What a capture store keeps over its runs, whatever effects fail and whenever it crashes: an
acknowledged capture stays in the ledger and on its segment's file, it is accepted once, it can
be read back while a writer serves, and a sealed segment never changes.
-/
import ChipTrace.Store.Acknowledged
import ChipTrace.Store.Reopening

namespace ChipTrace.CaptureStore

section Commands

variable {sha256 : Bytes → String} {config : StoreConfig} {calm : Prop} {before : Disk}
  {world : World}

theorem keeps_sealAndRotate (h : Running sha256 calm before world) :
    Eff.Wp (sealAndRotate sha256 config) (fun _ next => Running sha256 calm before next)
      (fun _ next => Stalled sha256 calm before next) world := by
  rw [sealAndRotate, Eff.wp_bind, Eff.wp_get, Eff.wp_ite]
  refine ⟨fun _ => ?_, fun _ => ?_⟩
  · rw [Eff.wp_bind]
    apply wp_sync
    · exact fun _ _ _ _ => ⟨h.toSecured, h.toWrites.relaxed⟩
    · exact fun _ _ => ⟨h.toSecured, h.toWrites⟩
  · rw [Eff.wp_bind]
    apply (keeps_rotate h).mono _ fun _ _ h => h
    intro finished next hnext
    rw [Eff.wp_bind]
    apply wp_readCounters
    · exact fun _ _ => hnext.stalled
    · exact fun _ _ => hnext

theorem keeps_shutdownActive (h : Running sha256 calm before world) :
    Eff.Wp (shutdownActive sha256 config) (fun _ next => Secured sha256 calm before next.disk)
      (fun _ next => Secured sha256 calm before next.disk) world := by
  rw [shutdownActive, Eff.wp_bind, Eff.wp_get, Eff.wp_ite]
  refine ⟨fun _ => ?_, fun _ => ?_⟩
  · apply wp_sync
    · exact fun _ _ _ _ => h.toSecured
    · exact fun _ _ => h.toSecured
  · rw [Eff.wp_bind]
    exact (keeps_sealActive h).mono (fun _ _ hnext => hnext.1.toSecured)
      fun _ _ hnext => hnext.toSecured

end Commands

section Submitted

variable {sha256 : Bytes → String}

theorem normal_of_normalize {raw : Bytes} {maxBytes : Nat} {enforced : Bool}
    {record : CaptureRecord}
    (h : normalizeCaptureWithPolicy sha256 raw maxBytes enforced = .ok record) :
    Normal sha256 record := by
  rw [normalizeCaptureWithPolicy, Except.bind_eq_ok_iff] at h
  obtain ⟨_, _, h⟩ := h
  rw [Except.bind_eq_ok_iff] at h
  obtain ⟨found, hfound, h⟩ := h
  rw [Except.bind_eq_ok_iff] at h
  obtain ⟨_, _, h⟩ := h
  obtain rfl := Except.ok.inj h
  rw [normalizeUnbounded, Except.bind_eq_ok_iff] at hfound
  obtain ⟨envelope, _, hfound⟩ := hfound
  dsimp only at hfound
  rw [Except.bind_eq_ok_iff] at hfound
  obtain ⟨⟨captureId, object⟩, _, hfound⟩ := hfound
  obtain rfl := Except.ok.inj hfound
  refine ⟨?_, rfl⟩
  intro byte hbyte
  exact Bytes.encode_printable (Json.print_printable _) byte hbyte

/-- The records of a commit come from normalization. -/
def Submits (sha256 : Bytes → String) (event : Event) : Prop :=
  ∀ batch, event.1 = .commit batch → ∀ record ∈ batch, ∃ raw maxBytes enforced,
    normalizeCaptureWithPolicy sha256 raw maxBytes enforced = .ok record

theorem Submits.normal {batch : List CaptureRecord} {environment : Environment}
    (h : Submits sha256 (.commit batch, environment)) (record : CaptureRecord)
    (hrecord : record ∈ batch) : Normal sha256 record := by
  obtain ⟨raw, maxBytes, enforced, hnormalized⟩ := h batch rfl record hrecord
  exact normal_of_normalize hnormalized

end Submitted

section Steps

variable {sha256 : Bytes → String} {config : StoreConfig} {calm : Prop} {before : Disk}
  {store : Store}

/-- The disk of a store is safe, and a writer that runs can go on. -/
structure Kept (sha256 : Bytes → String) (calm : Prop) (before : Disk) (store : Store) : Prop
    extends Secured sha256 calm before store.disk where
  writes : ∀ writer, store.writer = some writer → Writes calm store.disk writer.active
  service : calm → InService store

theorem Kept.running (h : Kept sha256 calm before store) {writer : Writer}
    (hwriter : store.writer = some writer) (environment : Environment) :
    Running sha256 calm before
      ⟨store.disk, writer.active, writer.nextAttemptId, environment⟩ :=
  ⟨h.toSecured, h.writes writer hwriter⟩

theorem keeps_stepOpen (h : Kept sha256 calm before store) (environment : Environment) :
    Secured sha256 calm before (store.stepOpen sha256 config environment).disk ∧
      ∀ writer, (store.stepOpen sha256 config environment).writer = some writer →
        Writes calm (store.stepOpen sha256 config environment).disk writer.active := by
  rw [Store.stepOpen]
  split_ifs
  · exact ⟨h.toSecured, h.writes⟩
  · have hopen := @keeps_openWriter sha256 config calm
      ⟨store.disk, (store.writer.getD ⟨Store.inactive, 1⟩).active,
        (store.writer.getD ⟨Store.inactive, 1⟩).nextAttemptId, environment⟩ h.toSafe
    cases hrun : store.runOn environment (openWriter sha256 config) with
    | mk result world =>
        cases result with
        | error stop => exact ⟨(hopen.error hrun).since h.retains, fun _ hnone => by cases hnone⟩
        | ok opened =>
            have hrunning := hopen.ok hrun
            refine ⟨hrunning.toSecured.since h.retains, ?_⟩
            intro writer hwriter
            cases hwriter
            exact hrunning.toWrites

theorem keeps_stepCommit (h : Kept sha256 calm before store) (environment : Environment)
    {batch : List CaptureRecord} (hnormal : ∀ record ∈ batch, Normal sha256 record) :
    Secured sha256 calm before (store.stepCommit sha256 config environment batch).disk ∧
      ∀ writer, (store.stepCommit sha256 config environment batch).writer = some writer →
        Writes calm (store.stepCommit sha256 config environment batch).disk writer.active := by
  rw [Store.stepCommit]
  split_ifs with hidle
  · exact ⟨h.toSecured, h.writes⟩
  · cases hwriter : store.writer with
    | none =>
        rw [hwriter] at hidle
        exact absurd rfl hidle
    | some writer =>
        have hcommit := @keeps_commitBatchInner sha256 config calm before _
          (h.running hwriter environment) batch hnormal
        cases hrun : store.runOn environment (commitBatchInner sha256 config batch) with
        | mk result world =>
            rw [Store.runOn, hwriter] at hrun
            cases result with
            | error stop =>
                have hstopped := hcommit.error hrun
                cases stop with
                | failed message => exact ⟨hstopped, fun _ hnone => by cases hnone⟩
                | crashed => exact ⟨hstopped, fun _ hnone => by cases hnone⟩
            | ok commit =>
                have hrunning := (hcommit.ok hrun).2
                refine ⟨hrunning.toSecured, ?_⟩
                intro other hother
                cases hother
                exact hrunning.toWrites

/-- A flush whose effects do not fail in a calm run; one that fails leaves the writer stalled. -/
theorem keeps_stepFlush (h : Kept sha256 calm before store) (environment : Environment)
    (hholds : calm → ∀ message, ¬ Allows environment (.failed message)) :
    Secured sha256 calm before (store.stepFlush sha256 config environment).disk ∧
      ∀ writer, (store.stepFlush sha256 config environment).writer = some writer →
        Writes calm (store.stepFlush sha256 config environment).disk writer.active := by
  rw [Store.stepFlush]
  split_ifs with hidle
  · exact ⟨h.toSecured, h.writes⟩
  · cases hwriter : store.writer with
    | none =>
        rw [hwriter] at hidle
        exact absurd rfl hidle
    | some writer =>
        have hflush := @keeps_sealAndRotate sha256 config calm before _
          (h.running hwriter environment)
        have hcrashes := @wp_sealAndRotate sha256 config
          ⟨store.disk, writer.active, writer.nextAttemptId, environment⟩ calm (· = .crashed)
          fun hcalm => ⟨h.service hcalm writer hwriter, fun stop hallows => by
            cases stop with
            | failed message => exact absurd hallows (hholds hcalm message)
            | crashed => rfl⟩
        cases hrun : store.runOn environment (sealAndRotate sha256 config) with
        | mk result world =>
            rw [Store.runOn, hwriter] at hrun
            cases result with
            | error stop =>
                have hstalled := hflush.error hrun
                cases stop with
                | failed message =>
                    refine ⟨hstalled.toSecured, ?_⟩
                    intro other hother
                    cases hother
                    have hwrites := hstalled.toWrites
                    refine ⟨hwrites.row, hwrites.path, hwrites.handle, hwrites.content,
                      hwrites.bytes, hwrites.openPath, fun hcalm => ?_⟩
                    have hcrashed := hcrashes.error hrun hcalm
                    cases hcrashed
                | crashed => exact ⟨hstalled.toSecured, fun _ hnone => by cases hnone⟩
            | ok flushed =>
                have hrunning := hflush.ok hrun
                refine ⟨hrunning.toSecured, ?_⟩
                intro other hother
                cases hother
                exact hrunning.toWrites

theorem keeps_stepShutdown (h : Kept sha256 calm before store) (environment : Environment) :
    Secured sha256 calm before (store.stepShutdown sha256 config environment).disk ∧
      ∀ writer, (store.stepShutdown sha256 config environment).writer = some writer →
        Writes calm (store.stepShutdown sha256 config environment).disk writer.active := by
  rw [Store.stepShutdown]
  split_ifs with hidle
  · exact ⟨h.toSecured, h.writes⟩
  · cases hwriter : store.writer with
    | none =>
        rw [hwriter] at hidle
        exact absurd rfl hidle
    | some writer =>
        have hshutdown := @keeps_shutdownActive sha256 config calm before _
          (h.running hwriter environment)
        cases hrun : store.runOn environment (shutdownActive sha256 config) with
        | mk result world =>
            rw [Store.runOn, hwriter] at hrun
            cases result with
            | error stop =>
                have hstopped := hshutdown.error hrun
                cases stop with
                | failed message => exact ⟨hstopped, fun _ hnone => by cases hnone⟩
                | crashed => exact ⟨hstopped, fun _ hnone => by cases hnone⟩
            | ok _ => exact ⟨hshutdown.ok hrun, fun _ hnone => by cases hnone⟩

/-- A step keeps everything; in a calm run no effect of a flush fails. -/
theorem keeps_step (h : Kept sha256 calm before store) {event : Event}
    (hsubmits : Submits sha256 event) (hholds : calm → FlushHolds event) :
    Kept sha256 calm before (store.step sha256 config event) := by
  have hstep : Secured sha256 calm before (store.step sha256 config event).disk ∧
      ∀ writer, (store.step sha256 config event).writer = some writer →
        Writes calm (store.step sha256 config event).disk writer.active := by
    obtain ⟨command, environment⟩ := event
    cases command with
    | «open» => exact keeps_stepOpen h environment
    | commit batch => exact keeps_stepCommit h environment hsubmits.normal
    | flush => exact keeps_stepFlush h environment fun hcalm => hholds hcalm rfl
    | shutdown => exact keeps_stepShutdown h environment
    | kill => exact ⟨h.toSecured, fun _ hnone => by cases hnone⟩
  exact ⟨hstep.1, hstep.2, fun hcalm => inService_step store event (h.service hcalm)
    (hholds hcalm)⟩

/-- So does a run. -/
theorem keeps_run (h : Kept sha256 calm before store) {events : List Event}
    (hsubmits : ∀ event ∈ events, Submits sha256 event)
    (hholds : calm → ∀ event ∈ events, FlushHolds event) :
    Kept sha256 calm before (Machine.run (Store.step sha256 config) store events) := by
  induction events generalizing store with
  | nil => exact h
  | cons event rest ih =>
      rw [Machine.run_cons]
      apply ih
      · exact keeps_step h (hsubmits event List.mem_cons_self)
          fun hcalm => hholds hcalm event List.mem_cons_self
      · exact fun other hother => hsubmits other (List.mem_cons_of_mem _ hother)
      · exact fun hcalm other hother => hholds hcalm other (List.mem_cons_of_mem _ hother)

theorem kept_initial (sha256 : Bytes → String) (calm : Prop) :
    Kept sha256 calm Disk.empty Store.initial := by
  have hsafe : Safe sha256 calm Disk.empty := by
    constructor <;> intros <;> simp_all [Disk.empty, Single]
  exact ⟨Secured.start hsafe, (fun _ hnone => by cases hnone), fun _ => inService_of_none rfl⟩

/-- A store that was reached keeps what it has. -/
theorem Kept.restart (h : Kept sha256 calm before store) : Kept sha256 calm store.disk store :=
  ⟨Secured.start h.toSafe, h.writes, h.service⟩

end Steps

namespace Sample

/-- A submission, as its bytes. -/
def raw : Bytes := jsonBytes (.obj [("captureId", .str "cap-a")])

def stored : JsonMap :=
  [("captureError", .null), ("captureId", .str "cap-a"), ("captureStage", .str "event"),
    ("fieldEvidence", .arr []), ("fieldEvidenceConflicts", .arr []),
    ("observedLifecycleEvents", .arr []), ("receivedAt", .null),
    ("recordType", .str "api_snapshot"), ("redactedHeaders", .arr []),
    ("requestHeaders", .obj []), ("requestTruncated", .bool false),
    ("responseHeaders", .obj []), ("responseTruncated", .bool false), ("stream", .bool false),
    ("traceContext", .obj []), ("version", .str "chiptrace.capture.v2")]

def record : CaptureRecord :=
  { captureId := "cap-a", canonical := jsonBytes (.obj stored), sha256 := ""
    legacyRawSha256 := some "", receivedAt := none, model := none
    wireEvidence := ⟨false, false, false⟩ }

theorem normalizes : normalizeCapture (fun _ => "") raw 4096 = .ok record := by decide +kernel

def config : StoreConfig := ⟨4096, true⟩

def calm : Environment := ⟨[], [], []⟩

def opens : Event := (.open, calm)

def commits : Event := (.commit [record], calm)

def flushes : Event := (.flush, calm)

def dies : Event := (.kill, calm)

def allEvents : List Event := [opens, commits, flushes, dies]

theorem submits {events : List Event} (h : events ⊆ allEvents) :
    ∀ event ∈ events, Submits (fun _ => "") event := by
  intro event hevent batch hbatch other hother
  have hsame : batch = [record] := by
    have hmem := h hevent
    simp only [allEvents, opens, commits, flushes, dies, List.mem_cons, List.not_mem_nil,
      or_false] at hmem
    rcases hmem with rfl | rfl | rfl | rfl <;> cases hbatch
    rfl
  rw [hsame, List.mem_singleton] at hother
  rw [hother]
  exact ⟨raw, 4096, true, normalizes⟩

theorem holds {events : List Event} (h : events ⊆ allEvents) :
    ∀ event ∈ events, FlushHolds event := by
  intro event hevent _ message hallows
  have hcalm : event.2 = calm := by
    have hmem := h hevent
    simp only [allEvents, opens, commits, flushes, dies, List.mem_cons, List.not_mem_nil,
      or_false] at hmem
    rcases hmem with rfl | rfl | rfl | rfl <;> rfl
  rw [hcalm] at hallows
  exact List.not_mem_nil hallows.choose_spec

end Sample

section Acknowledged

variable {sha256 : Bytes → String} {config : StoreConfig}

/-- The state after a run from a new store. -/
def reached (sha256 : Bytes → String) (config : StoreConfig) (events : List Event) : Store :=
  Machine.run (Store.step sha256 config) .initial events

/-- A commit that returned to its caller in the middle of a run. -/
structure Commits (sha256 : Bytes → String) (config : StoreConfig) (store : Store)
    (environment : Environment) (batch : List CaptureRecord) (commit : BatchCommit) : Prop where
  serves : store.writer.isSome
  returns : ∃ world,
    store.runOn environment (commitBatchInner sha256 config batch) = (.ok commit, world)

/-- The answers of a commit hold on the disk after it. -/
theorem Commits.answered {calm : Prop} {before : Disk} {store : Store} {environment : Environment}
    {batch : List CaptureRecord} {commit : BatchCommit}
    (h : Commits sha256 config store environment batch commit)
    (hkept : Kept sha256 calm before store) (hnormal : ∀ record ∈ batch, Normal sha256 record) :
    List.Forall₂ (Answered sha256
      (store.step sha256 config (.commit batch, environment)).disk) batch commit.results := by
  obtain ⟨writer, hwriter⟩ := Option.isSome_iff_exists.mp h.serves
  obtain ⟨world, hrun⟩ := h.returns
  have hcommit := @keeps_commitBatchInner sha256 config calm before _
    (hkept.running hwriter environment) batch hnormal
  have hanswered : List.Forall₂ (Answered sha256 world.disk) batch commit.results := by
    rw [Store.runOn, hwriter] at hrun
    exact (hcommit.ok hrun).1
  cases batch with
  | nil =>
      rw [List.forall₂_nil_left_iff.mp hanswered]
      exact List.Forall₂.nil
  | cons record rest =>
      have hdisk : (store.step sha256 config (.commit (record :: rest), environment)).disk =
          world.disk := by
        change (store.stepCommit sha256 config environment (record :: rest)).disk = world.disk
        rw [Store.stepCommit, if_neg, hrun]
        · rfl
        · rw [hwriter]
          exact Bool.false_ne_true
      rw [hdisk]
      exact hanswered

/-- A run from a new store keeps what it has, calm or not. -/
theorem kept_reached {calm : Prop} {events : List Event}
    (hsubmits : ∀ event ∈ events, Submits sha256 event)
    (hholds : calm → ∀ event ∈ events, FlushHolds event) :
    Kept sha256 calm (reached sha256 config events).disk (reached sha256 config events) :=
  (keeps_run (kept_initial sha256 calm) hsubmits hholds).restart

/-- What comes later in a run keeps what was there. -/
theorem retains_later {calm : Prop} {events later : List Event}
    (hsubmits : ∀ event ∈ events ++ later, Submits sha256 event)
    (hholds : calm → ∀ event ∈ events ++ later, FlushHolds event) :
    Retains calm (reached sha256 config events).disk
      (reached sha256 config (events ++ later)).disk := by
  have hkept := @kept_reached sha256 config calm events
    (fun event hevent => hsubmits event (List.mem_append_left _ hevent))
    fun hcalm event hevent => hholds hcalm event (List.mem_append_left _ hevent)
  rw [reached, reached, Machine.run_append]
  exact (keeps_run hkept (fun event hevent => hsubmits event (List.mem_append_right _ hevent))
    fun hcalm event hevent => hholds hcalm event (List.mem_append_right _ hevent)).retains

theorem reached_step (events : List Event) (event : Event) :
    reached sha256 config (events ++ [event]) =
      (reached sha256 config events).step sha256 config event := by
  rw [reached, Machine.run_append]
  rfl

/-- A commit into a new store returns. -/
theorem commits_sample : ∃ commit, Commits (fun _ => "") Sample.config
    (reached (fun _ => "") Sample.config [Sample.opens]) Sample.calm [Sample.record]
      commit ∧ commit.results.map verdictOf = [.accepted ""] := by
  have hverdicts : ((reached (fun _ => "") Sample.config [Sample.opens]).runOn Sample.calm
      (commitBatchInner (fun _ => "") Sample.config [Sample.record])).1.toOption.map
        (fun commit => commit.results.map verdictOf) = some [.accepted ""] := by
    decide +kernel
  cases hrun : (reached (fun _ => "") Sample.config [Sample.opens]).runOn Sample.calm
      (commitBatchInner (fun _ => "") Sample.config [Sample.record]) with
  | mk result world =>
      rw [hrun] at hverdicts
      cases result with
      | error stop => cases hverdicts
      | ok commit => exact ⟨commit, ⟨by decide +kernel, world, hrun⟩, Option.some.inj hverdicts⟩

/-- Whatever fails and whenever the store crashes before and after, an acknowledgement keeps
its promise: the row it names is in the ledger under the capture's id, the line it names is in
its segment with the digest it names, and an accepted record's line is the record itself. -/
theorem acknowledged_kept {events later : List Event} {environment : Environment}
    {batch : List CaptureRecord} {commit : BatchCommit}
    (hsubmits : ∀ event ∈ events ++ (.commit batch, environment) :: later, Submits sha256 event)
    (hcommits : Commits sha256 config (reached sha256 config events) environment batch commit) :
    List.Forall₂ (Answered sha256
      (reached sha256 config (events ++ (.commit batch, environment) :: later)).disk) batch
      commit.results := by
  have hkept := @kept_reached sha256 config False events
    (fun event hevent => hsubmits event (List.mem_append_left _ hevent)) False.elim
  have hsubmit := hsubmits (.commit batch, environment) (by simp)
  have hanswered := hcommits.answered hkept hsubmit.normal
  rw [List.append_cons] at hsubmits ⊢
  have hretains := @retains_later sha256 config False _ _ hsubmits False.elim
  rw [reached_step] at hretains
  exact hanswered.imp fun _ _ hanswer => hanswer.mono hretains

/-- A commit into a new store, whose process is then killed and started again. -/
theorem acknowledged_kept_restart : ∃ commit : BatchCommit,
    commit.results.map verdictOf = [.accepted ""] ∧
    List.Forall₂ (Answered (fun _ => "") (reached (fun _ => "") Sample.config
      [Sample.opens, Sample.commits, Sample.dies, Sample.opens]).disk) [Sample.record]
      commit.results := by
  obtain ⟨commit, hcommits, hverdicts⟩ := commits_sample
  refine ⟨commit, hverdicts, ?_⟩
  exact @acknowledged_kept _ _ [Sample.opens] [Sample.dies, Sample.opens] _ _ _
    (@Sample.submits [Sample.opens, Sample.commits, Sample.dies, Sample.opens]
      (by simp [Sample.allEvents])) hcommits

end Acknowledged

section Accepted

/-- The captures that the answers of a batch accept. -/
def acceptedIds (batch : List CaptureRecord) (verdicts : List Verdict) : List String :=
  (batch.zip verdicts).filterMap fun answered =>
    if answered.2.isAccepted then some answered.1.captureId else none

theorem acceptedIds_cons (record : CaptureRecord) (verdict : Verdict) (batch : List CaptureRecord)
    (verdicts : List Verdict) :
    acceptedIds (record :: batch) (verdict :: verdicts) =
      (if verdict.isAccepted then [record.captureId] else []) ++ acceptedIds batch verdicts := by
  rw [acceptedIds, List.zip_cons_cons, List.filterMap_cons]
  cases verdict.isAccepted <;> rfl

/-- A batch accepts what is unknown to the ledger and to the batch before. -/
theorem mem_acceptedIds {ledger brought : Known} {batch : List CaptureRecord} {id : String}
    (h : id ∈ acceptedIds batch (judgeBatch ledger brought batch)) :
    ledger id = none ∧ brought id = none := by
  induction batch generalizing brought with
  | nil => cases h
  | cons record rest ih =>
      rw [judgeBatch, acceptedIds_cons, List.mem_append] at h
      apply Or.elim h
      · intro hhead
        split_ifs at hhead with haccepted
        · obtain rfl := List.mem_singleton.mp hhead
          rw [judgeInBatch] at haccepted
          cases hledger : ledger record.captureId with
          | some known =>
              rw [hledger] at haccepted
              dsimp only [againstKnown] at haccepted
              split_ifs at haccepted <;> cases haccepted
          | none =>
              rw [hledger] at haccepted
              cases hbrought : brought record.captureId with
              | some known =>
                  rw [hbrought] at haccepted
                  dsimp only [againstKnown] at haccepted
                  split_ifs at haccepted <;> cases haccepted
              | none => exact ⟨rfl, rfl⟩
        · cases hhead
      · intro hrest
        obtain ⟨hledger, hbrought⟩ := ih hrest
        refine ⟨hledger, ?_⟩
        rw [learnInBatch] at hbrought
        split_ifs at hbrought
        · exact hbrought
        · rw [learn] at hbrought
          split_ifs at hbrought
          · exact hbrought
          · rw [Function.update_apply] at hbrought
            split_ifs at hbrought
            exact hbrought

/-- Each once. -/
theorem nodup_acceptedIds (ledger brought : Known) (batch : List CaptureRecord) :
    (acceptedIds batch (judgeBatch ledger brought batch)).Nodup := by
  induction batch generalizing brought with
  | nil => exact List.nodup_nil
  | cons record rest ih =>
      rw [judgeBatch, acceptedIds_cons]
      split_ifs with haccepted
      · apply List.nodup_cons.mpr
        refine ⟨?_, ih _⟩
        intro hmem
        have hbrought := (mem_acceptedIds hmem).2
        have hhead : record.captureId ∈
            acceptedIds (record :: rest) (judgeBatch ledger brought (record :: rest)) := by
          rw [judgeBatch, acceptedIds_cons, if_pos haccepted]
          exact List.mem_cons_self
        obtain ⟨hledger, hbefore⟩ := mem_acceptedIds hhead
        rw [learnInBatch, hledger, learn, hbefore] at hbrought
        simp at hbrought
      · exact ih _

variable {sha256 : Bytes → String} {config : StoreConfig}

/-- What the answer to one event accepts. -/
def acceptances (sha256 : Bytes → String) (config : StoreConfig) (store : Store)
    (event : Event) : List String :=
  match event.1 with
  | .commit batch =>
      if store.writer.isNone then []
      else match store.runOn event.2 (commitBatchInner sha256 config batch) with
        | (.ok commit, _) => acceptedIds batch (commit.results.map verdictOf)
        | (.error _, _) => []
  | _ => []

/-- What the answers of a run accept. -/
def acceptedIn (sha256 : Bytes → String) (config : StoreConfig) : Store → List Event → List String
  | _, [] => []
  | store, event :: rest =>
      acceptances sha256 config store event ++
        acceptedIn sha256 config (store.step sha256 config event) rest

theorem mem_acceptedIds_results {batch : List CaptureRecord}
    {results : List (Except SubmitError SubmitAck)} {id : String}
    (h : id ∈ acceptedIds batch (results.map verdictOf)) :
    ∃ record answer, (record, .ok answer) ∈ batch.zip results ∧ record.captureId = id := by
  rw [acceptedIds, List.zip_map_right, List.filterMap_map, List.mem_filterMap] at h
  obtain ⟨⟨record, result⟩, hmem, hselected⟩ := h
  dsimp only [Function.comp_apply, Prod.map] at hselected
  cases result with
  | error fault => cases hselected
  | ok answer =>
      split_ifs at hselected
      exact ⟨record, answer, hmem, Option.some.inj hselected⟩

variable {calm : Prop} {before : Disk} {store : Store}

/-- A commit accepts captures that the ledger did not have, and has afterwards. -/
theorem acceptances_spec (h : Kept sha256 calm before store) {event : Event}
    (hsubmits : Submits sha256 event) :
    (acceptances sha256 config store event).Nodup ∧
      ∀ id ∈ acceptances sha256 config store event, store.disk.captures.get? id = none ∧
        ((store.step sha256 config event).disk.captures.get? id).isSome := by
  obtain ⟨command, environment⟩ := event
  cases command with
  | «open» => exact ⟨List.nodup_nil, fun _ hmem => by cases hmem⟩
  | flush => exact ⟨List.nodup_nil, fun _ hmem => by cases hmem⟩
  | shutdown => exact ⟨List.nodup_nil, fun _ hmem => by cases hmem⟩
  | kill => exact ⟨List.nodup_nil, fun _ hmem => by cases hmem⟩
  | commit batch =>
      rw [acceptances]
      dsimp only
      cases hwriter : store.writer with
      | none =>
          rw [Option.isNone_none, if_pos rfl]
          exact ⟨List.nodup_nil, fun _ hmem => by cases hmem⟩
      | some writer =>
          rw [Option.isNone_some, if_neg Bool.false_ne_true]
          cases hrun : store.runOn environment (commitBatchInner sha256 config batch) with
          | mk result world =>
              cases result with
              | error stop => exact ⟨List.nodup_nil, fun _ hmem => by cases hmem⟩
              | ok commit =>
                  have hcommits : Commits sha256 config store environment batch commit :=
                    ⟨by rw [hwriter]; rfl, world, hrun⟩
                  have hanswered := hcommits.answered h hsubmits.normal
                  rw [Store.runOn, hwriter] at hrun
                  have hcommit := @wp_commitBatchInner sha256 config
                    ⟨store.disk, writer.active, writer.nextAttemptId, environment⟩ False
                    (fun _ => True) False.elim batch
                  have hverdicts := (hcommit.ok hrun).2.verdicts
                  dsimp only at hverdicts ⊢
                  constructor
                  · rw [hverdicts]
                    exact nodup_acceptedIds _ _ _
                  · intro id hid
                    constructor
                    · rw [hverdicts] at hid
                      exact Option.map_eq_none_iff.mp (mem_acceptedIds hid).1
                    · obtain ⟨record, answer, hmem, rfl⟩ := mem_acceptedIds_results hid
                      obtain ⟨row, _, hrow, _⟩ :=
                        (List.forall₂_iff_zip.mp hanswered).2 hmem answer rfl
                      rw [hrow]
                      rfl

/-- What the answers of a run accept the ledger did not have before. -/
theorem acceptedIn_new (h : Kept sha256 False before store) {events : List Event}
    (hsubmits : ∀ event ∈ events, Submits sha256 event) {id : String}
    (hid : id ∈ acceptedIn sha256 config store events) : store.disk.captures.get? id = none := by
  induction events generalizing store before with
  | nil => cases hid
  | cons event rest ih =>
      have hsubmit := hsubmits event List.mem_cons_self
      apply Or.elim (List.mem_append.mp hid)
      · exact fun hhead => ((acceptances_spec h hsubmit).2 id hhead).1
      · intro hrest
        have hstep := @keeps_step sha256 config False _ store h.restart event hsubmit False.elim
        have hnone := ih hstep
          (fun other hother => hsubmits other (List.mem_cons_of_mem _ hother)) hrest
        cases hrow : store.disk.captures.get? id with
        | none => rfl
        | some row =>
            rw [hstep.retains.captures id row hrow] at hnone
            cases hnone

/-- Whatever fails and whenever the store crashes, no capture is accepted twice. -/
theorem accepted_once {events : List Event} (hsubmits : ∀ event ∈ events, Submits sha256 event) :
    (acceptedIn sha256 config .initial events).Nodup := by
  have hgeneral : ∀ store before, Kept sha256 False before store →
      (acceptedIn sha256 config store events).Nodup := by
    induction events with
    | nil => exact fun _ _ _ => List.nodup_nil
    | cons event rest ih =>
        intro store before h
        have hsubmit := hsubmits event List.mem_cons_self
        have hlater := fun other hother => hsubmits other (List.mem_cons_of_mem event hother)
        have hstep := @keeps_step sha256 config False _ store h event hsubmit False.elim
        obtain ⟨hnodup, hnew⟩ := acceptances_spec h hsubmit
        rw [acceptedIn, List.nodup_append]
        refine ⟨hnodup, ih hlater _ _ hstep, ?_⟩
        rintro id hid other hother rfl
        have hsome := (hnew id hid).2
        rw [acceptedIn_new hstep hlater hother] at hsome
        cases hsome
  exact hgeneral _ _ (kept_initial sha256 False)

theorem accepted_once_sample : (acceptedIn (fun _ => "") Sample.config .initial
    [Sample.opens, Sample.commits, Sample.dies, Sample.opens, Sample.commits]).Nodup :=
  accepted_once (Sample.submits (by simp [Sample.allEvents]))

end Accepted

section Reading

variable (sha256 : Bytes → String)

/-- Read a capture back from its segment. -/
def readCapture (disk : Disk) (captureId : String) : Except String Bytes :=
  match disk.captures.get? captureId with
  | none => .error s!"capture not found: {captureId}"
  | some locator =>
      match disk.segments.get? locator.segmentId with
      | none => .error ("segment not found: " ++ toString locator.segmentId)
      | some segment =>
          match disk.files.get? segment.path with
          | none => .error "No such file or directory"
          | some content =>
              let bytes := (content.drop locator.offset).take locator.length
              if bytes.length < locator.length then .error "failed to fill whole buffer"
              else if bytes.getLast? ≠ some 10 then
                .error s!"capture locator newline mismatch: {captureId}"
              else if sha256 bytes.dropLast ≠ locator.rawSha256 then
                .error s!"capture locator checksum mismatch: {captureId}"
              else .ok bytes.dropLast

variable {sha256} {config : StoreConfig} {disk : Disk} {locator : CaptureLocator}
  {segment : SegmentMetadata} {content line : Bytes} {captureId : String}

/-- A capture that is in place is read back where its segment's file has the name in the
ledger. -/
theorem readCapture_of_placed (hlocator : disk.captures.get? captureId = some locator)
    (hsegment : disk.segments.get? locator.segmentId = some segment)
    (hfile : disk.files.get? segment.path = some content)
    (hbytes : disk.segmentBytes locator.segmentId = some content)
    (hplaced : Placed disk locator line) (hsha : sha256 line = locator.rawSha256) :
    readCapture sha256 disk captureId = .ok line := by
  obtain ⟨found, front, hfound, hfront, tail, rfl⟩ := hplaced.content
  rw [hbytes, Option.some.injEq] at hfound
  have hread : (content.drop locator.offset).take locator.length = line ++ [10] := by
    rw [hfound, ← hfront, hplaced.length, List.append_assoc, List.append_assoc,
      List.drop_left, ← List.append_assoc]
    exact List.take_left' (by simp)
  rw [readCapture, hlocator]
  dsimp only
  rw [hsegment]
  dsimp only
  rw [hfile]
  dsimp only
  rw [hread, if_neg, if_neg, if_neg]
  · rw [List.dropLast_concat]
  · rw [List.dropLast_concat]
    exact fun hne => hne hsha
  · rw [List.getLast?_concat]
    exact fun hne => hne rfl
  · rw [hplaced.length, List.length_append]
    exact Nat.lt_irrefl _

/-- While a writer serves, and no flush has failed, every capture of the ledger is read. -/
theorem Kept.reads {before : Disk} {store : Store} (h : Kept sha256 True before store)
    (hserves : store.writer.isSome) (hlocator : store.disk.captures.get? captureId = some locator)
    (hplaced : Placed store.disk locator line) (hsha : sha256 line = locator.rawSha256) :
    readCapture sha256 store.disk captureId = .ok line := by
  obtain ⟨writer, hwriter⟩ := Option.isSome_iff_exists.mp hserves
  have hwrites := h.writes writer hwriter
  have horderly := hwrites.orderly trivial
  obtain ⟨segment, hsegment⟩ := Option.isSome_iff_exists.mp hplaced.segment
  have hnamed : ∃ content, store.disk.files.get? segment.path = some content ∧
      (ofLex segment.path).1 = locator.segmentId := by
    cases hstate : segment.state with
    | «open» =>
        have hid := (horderly.only _ segment hsegment).mp hstate
        have hpath := h.openRows _ segment hsegment hstate
        refine ⟨writer.active.digest, ?_, ?_⟩
        · rw [hpath, hid, ← horderly.handle]
          exact hwrites.content
        · rw [hpath]
          rfl
    | «sealed» =>
        have hseals := h.seals trivial _ segment hsegment hstate
        obtain ⟨content, hcontent, _⟩ := hseals.file
        rw [hseals.path]
        exact ⟨content, hcontent, rfl⟩
  obtain ⟨content, hcontent, hid⟩ := hnamed
  have hbytes := segmentBytes_of_file h.single hcontent
  rw [hid] at hbytes
  exact readCapture_of_placed hlocator hsegment hcontent hbytes hplaced hsha

/-- In a run where no effect of a flush fails, whatever else fails and whenever the store
crashes, every acknowledged capture is read back while a writer serves: the bytes have the
digest that was acknowledged, and an accepted record's bytes are its own. -/
theorem acknowledged_readable {events later : List Event} {environment : Environment}
    {batch : List CaptureRecord} {commit : BatchCommit}
    (hsubmits : ∀ event ∈ events ++ (.commit batch, environment) :: later, Submits sha256 event)
    (hholds : ∀ event ∈ events ++ (.commit batch, environment) :: later, FlushHolds event)
    (hcommits : Commits sha256 config (reached sha256 config events) environment batch commit)
    (hserves :
      (reached sha256 config (events ++ (.commit batch, environment) :: later)).writer.isSome)
    {record : CaptureRecord} {answer : SubmitAck}
    (hanswer : (record, .ok answer) ∈ batch.zip commit.results) :
    ∃ line, readCapture sha256
        (reached sha256 config (events ++ (.commit batch, environment) :: later)).disk
        record.captureId = .ok line ∧
      sha256 line = answer.rawSha256 ∧ (answer.duplicate = false → line = record.canonical) := by
  have hanswered := acknowledged_kept hsubmits hcommits
  obtain ⟨row, line, hrow, hack, hplaced, hsha, hown⟩ :=
    (List.forall₂_iff_zip.mp hanswered).2 hanswer answer rfl
  have hkept := @kept_reached sha256 config True _ hsubmits fun _ => hholds
  refine ⟨line, hkept.reads hserves hrow hplaced hsha, ?_, hown⟩
  rw [hack]
  exact hsha

theorem acknowledged_readable_sample : ∃ (commit : BatchCommit) (answer : SubmitAck),
    (Sample.record, .ok answer) ∈ [Sample.record].zip commit.results ∧
    ∃ line, readCapture (fun _ => "") (reached (fun _ => "") Sample.config
        ([Sample.opens] ++ Sample.commits :: [Sample.flushes])).disk Sample.record.captureId =
          .ok line ∧
      "" = answer.rawSha256 ∧ (answer.duplicate = false → line = Sample.record.canonical) := by
  obtain ⟨commit, hcommits, hverdicts⟩ := commits_sample
  have hanswer : ∃ answer, (Sample.record, .ok answer) ∈ [Sample.record].zip commit.results := by
    cases hresults : commit.results with
    | nil =>
        rw [hresults] at hverdicts
        cases hverdicts
    | cons result rest =>
        rw [hresults, List.map_cons] at hverdicts
        cases result with
        | error fault => cases (List.cons.inj hverdicts).1
        | ok answer => exact ⟨answer, List.mem_cons_self⟩
  obtain ⟨answer, hanswer⟩ := hanswer
  exact ⟨commit, answer, hanswer, @acknowledged_readable _ _ [Sample.opens]
    [Sample.flushes] _ _ _
    (Sample.submits (by simp [Sample.allEvents, Sample.commits]))
    (Sample.holds (by simp [Sample.allEvents, Sample.commits]))
    hcommits (by decide +kernel) _ _ hanswer⟩

/-- So a sealed segment is described by its row, and neither changes any more. -/
theorem sealed_immutable {events later : List Event}
    (hsubmits : ∀ event ∈ events ++ later, Submits sha256 event)
    (hholds : ∀ event ∈ events ++ later, FlushHolds event) {id : Nat}
    (hsegment : (reached sha256 config events).disk.segments.get? id = some segment)
    (hsealed : segment.state = .sealed) :
    ∃ content, (reached sha256 config events).disk.files.get? segment.path = some content ∧
      segment.bytes = content.length ∧ segment.sha256 = some (sha256 content) ∧
      (reached sha256 config (events ++ later)).disk.segments.get? id = some segment ∧
      (reached sha256 config (events ++ later)).disk.files.get? segment.path = some content := by
  have hkept := @kept_reached sha256 config True events
    (fun event hevent => hsubmits event (List.mem_append_left _ hevent))
    fun _ event hevent => hholds event (List.mem_append_left _ hevent)
  have hseals := hkept.seals trivial id segment hsegment hsealed
  obtain ⟨content, hcontent, hbytes, hsha⟩ := hseals.file
  have hretains := @retains_later sha256 config True events later hsubmits fun _ => hholds
  obtain ⟨hsame, hfile⟩ := hretains.seals trivial id segment hsegment hsealed
  rw [hseals.path]
  exact ⟨content, hcontent, hbytes, hsha, hsame, hfile.trans hcontent⟩

theorem sealed_immutable_sample : ∃ segment content, segment.state = .sealed ∧
    (reached (fun _ => "") Sample.config ([Sample.opens, Sample.commits, Sample.flushes] ++
      [Sample.dies, Sample.opens])).disk.segments.get? 1 = some segment ∧
    (reached (fun _ => "") Sample.config ([Sample.opens, Sample.commits, Sample.flushes] ++
      [Sample.dies, Sample.opens])).disk.files.get? segment.path = some content := by
  have hsealed : ((reached (fun _ => "") Sample.config
      [Sample.opens, Sample.commits, Sample.flushes]).disk.segments.get? 1).map
        SegmentMetadata.state = some .sealed := by
    decide +kernel
  obtain ⟨segment, hsegment, hstate⟩ := Option.map_eq_some_iff.mp hsealed
  obtain ⟨content, _, _, _, hsame, hfile⟩ := @sealed_immutable _ _ _
    [Sample.opens, Sample.commits, Sample.flushes] [Sample.dies, Sample.opens]
    (Sample.submits (by simp [Sample.allEvents])) (Sample.holds (by simp [Sample.allEvents])) _
    hsegment hstate
  exact ⟨segment, content, hstate, hsame, hfile⟩

end Reading

end ChipTrace.CaptureStore
