/-
Progress of the delivery workers under the shared body budget: permits are
conserved, and they cannot all end up in batches that wait for one more body.
-/
import ChipTrace.Lib.ListSum
import ChipTrace.Relay.DeliverMany
import Mathlib.Algebra.Group.Action.Defs

namespace ChipTrace

/-- The permits of a list of payloads. -/
def permitsOf (config : RelayConfig) (payloads : List DeliveryPayload) : Nat :=
  (payloads.map (permits config)).sum

def isQueued (read : BodyRead) : Bool := read.state = .queued

/-- The permits a read holds: none before it is admitted or after it failed. -/
def readHeld (config : RelayConfig) (read : BodyRead) : Nat :=
  match read.state with
  | .loading => permits config read.payload
  | .loaded => permits config read.payload
  | .queued => 0
  | .failed _ => 0

namespace DeliverMany

/-- The requests of the window that wait for permits, oldest first. -/
def queuedPermits (config : RelayConfig) (window : List BodyRead) : List Nat :=
  (window.filter isQueued).map fun read => permits config read.payload

def held (config : RelayConfig) (delivery : DeliverMany) : Nat :=
  (delivery.window.map (readHeld config)).sum + permitsOf config delivery.batch +
    permitsOf config (delivery.request.getD [])

end DeliverMany

/-- Claimed records whose reservations stay below `largest`, and whose batches below
the batch size reserve at most `unsent` permits. -/
structure ClaimWithin (config : RelayConfig) (largest unsent : Nat)
    (records : List DeliveryPayload) : Prop where
  largest : ∀ payload ∈ records, permits config payload ≤ largest
  unsent : ∀ batch, batch ⊆ records → batchBytes batch < config.deliveryBatchBytes →
    permitsOf config batch ≤ unsent

/-- A row that records the length of its line reserves at most that length. -/
theorem permits_le_of_recorded {config : RelayConfig} {payload : DeliveryPayload}
    (hbytes : payload.record.bytes = payload.body.length + 1) :
    permits config payload ≤ payload.body.length + 1 := by
  rw [permits]
  split
  · rename_i count hcount
    rw [reservation, hbytes, if_neg (Nat.succ_ne_zero _)] at hcount
    split_ifs at hcount
    have hmax : max (payload.body.length + 1) 1 = count := Except.ok.inj hcount
    omega
  · exact Nat.zero_le _

theorem permitsOf_le_of_batchBytes {config : RelayConfig} {size : Nat}
    (hsize : size < U64.limit) (batch : List DeliveryPayload) (total : Nat)
    (hitem : ∀ payload ∈ batch, permits config payload ≤ payload.body.length + 1)
    (hbelow : batch.foldl (fun total payload => U64.saturatingAdd total (itemBytes payload))
      total < size) : total + permitsOf config batch < size := by
  induction batch generalizing total with
  | nil => exact hbelow
  | cons payload rest ih =>
      have hrest : U64.saturatingAdd total (itemBytes payload) + permitsOf config rest < size :=
        ih _ (fun other hother => hitem other (List.mem_cons_of_mem _ hother)) hbelow
      have hfirst := hitem payload List.mem_cons_self
      have hnext := U64.saturatingAdd_of_lt hsize (lt_of_le_of_lt (Nat.le_add_right _ _) hrest)
      rw [hnext] at hrest
      have hitemBytes : itemBytes payload = payload.body.length + 1 :=
        U64.saturatingAdd_of_lt hsize (show itemBytes payload < size by omega)
      simp only [permitsOf, List.map_cons, List.sum_cons] at hrest ⊢
      omega

/-- Rows that record the length of their line reserve what they add to a batch. -/
theorem permitsOf_le_of_recorded {config : RelayConfig} {batch : List DeliveryPayload}
    (hlength : ∀ payload ∈ batch, payload.record.bytes = payload.body.length + 1)
    (hbelow : batchBytes batch < config.deliveryBatchBytes)
    (hlimit : config.deliveryBatchBytes < U64.limit) :
    permitsOf config batch ≤ config.deliveryBatchBytes - 1 := by
  have hsum : 0 + permitsOf config batch < config.deliveryBatchBytes :=
    permitsOf_le_of_batchBytes hlimit batch 0
      (fun payload hpayload => permits_le_of_recorded (hlength payload hpayload)) hbelow
  omega

namespace DeliverMany

variable {config : RelayConfig} {largest unsent : Nat}

/-- What every busy worker satisfies. -/
structure Sound (config : RelayConfig) (largest unsent : Nat) (delivery : DeliverMany) :
    Prop where
  claimed : ∃ records, ClaimWithin config largest unsent records ∧
    delivery.waiting ⊆ records ∧ (∀ read ∈ delivery.window, read.payload ∈ records) ∧
      delivery.batch ⊆ records
  below : delivery.request = none →
    delivery.batch = [] ∨ batchBytes delivery.batch < config.deliveryBatchBytes

/-- An action of a worker conserves permits and keeps its place in the queue. -/
structure Conserves (config : RelayConfig) (largest unsent : Nat) (delivery : DeliverMany)
    (effect : Effect) : Prop where
  sound : effect.next.Sound config largest unsent
  held : effect.next.held config + effect.released = delivery.held config
  queued : queuedPermits config effect.next.window =
    queuedPermits config delivery.window ++ effect.requests

variable {delivery : DeliverMany} {effect : Effect}

@[simp] theorem permitsOf_nil : permitsOf config [] = 0 := rfl

theorem permitsOf_append (first last : List DeliveryPayload) :
    permitsOf config (first ++ last) = permitsOf config first + permitsOf config last := by
  simp [permitsOf]

theorem permitsOf_singleton (payload : DeliveryPayload) :
    permitsOf config [payload] = permits config payload := by
  simp [permitsOf]

theorem startRead_conserves (h : delivery.Sound config largest unsent)
    (hstart : delivery.startRead config = some effect) :
    Conserves config largest unsent delivery effect := by
  obtain ⟨records, hwithin, hwaiting, hwindow, hbatch⟩ := h.claimed
  rw [startRead] at hstart
  split at hstart
  · rename_i payload rest hrequest hnext
    have hmem : payload ∈ records := hwaiting (hnext ▸ List.mem_cons_self)
    have hrest : rest ⊆ records := fun other hother =>
      hwaiting (hnext ▸ List.mem_cons_of_mem _ hother)
    have hadded : ∀ state, ∀ read ∈ delivery.window ++ [⟨payload, state⟩],
        read.payload ∈ records := by
      intro state read hread
      rcases List.mem_append.mp hread with hold | hnew
      · exact hwindow read hold
      · cases List.mem_singleton.mp hnew
        exact hmem
    split_ifs at hstart
    split at hstart
    · cases hstart
      refine ⟨⟨⟨records, hwithin, hrest, hadded _, hbatch⟩, h.below⟩, ?_, ?_⟩
      · simp [held, readHeld]
      · simp [queuedPermits, isQueued]
    · rename_i count hcount
      cases hstart
      refine ⟨⟨⟨records, hwithin, hrest, hadded _, hbatch⟩, h.below⟩, ?_, ?_⟩
      · simp [held, readHeld]
      · simp [queuedPermits, isQueued, permits, hcount]
  · cases hstart

theorem loadRead_conserves (h : delivery.Sound config largest unsent) {slot : Nat}
    {outcome : Except String Unit} (hload : delivery.loadRead config slot outcome = some effect) :
    Conserves config largest unsent delivery effect := by
  obtain ⟨records, hwithin, hwaiting, hwindow, hbatch⟩ := h.claimed
  rw [loadRead] at hload
  split at hload
  · rename_i payload hslot
    have hmem : payload ∈ records := hwindow _ (List.mem_of_getElem? hslot)
    have hset : ∀ state, ∀ read ∈ delivery.window.set slot ⟨payload, state⟩,
        read.payload ∈ records := by
      intro state read hread
      rcases List.mem_or_eq_of_mem_set hread with hold | rfl
      · exact hwindow read hold
      · exact hmem
    have hsum := fun state => List.sum_map_set (readHeld config) hslot ⟨payload, state⟩
    split at hload
    · cases hload
      refine ⟨⟨⟨records, hwithin, hwaiting, hset _, hbatch⟩, h.below⟩, ?_, ?_⟩
      · have hloaded := hsum .loaded
        simp only [readHeld] at hloaded
        simp only [held]
        omega
      · simp [queuedPermits, List.filter_set_of_neg hslot, isQueued]
    · rename_i error
      cases hload
      refine ⟨⟨⟨records, hwithin, hwaiting, hset _, hbatch⟩, h.below⟩, ?_, ?_⟩
      · have hfailed := hsum (.failed error)
        simp only [readHeld] at hfailed
        simp only [held]
        omega
      · simp [queuedPermits, List.filter_set_of_neg hslot, isQueued]
  · cases hload

theorem accumulate_conserves (config : RelayConfig) (delivery : DeliverMany)
    {payload : DeliveryPayload} {records : List DeliveryPayload}
    (hbatch : delivery.batch ⊆ records) (hpayload : payload ∈ records)
    (hrequest : delivery.request = none) :
    let next := delivery.accumulate config payload
    next.waiting = delivery.waiting ∧ next.window = delivery.window ∧ next.batch ⊆ records ∧
      next.held config = delivery.held config + permits config payload ∧
      (next.request = none → next.batch = [] ∨
        batchBytes next.batch < config.deliveryBatchBytes) := by
  dsimp only
  rw [accumulate]
  dsimp only
  split_ifs with hover hfull
  · refine ⟨rfl, rfl, by simpa using hpayload, ?_, fun hnone => by cases hnone⟩
    simp only [held, hrequest, Option.getD_some, Option.getD_none, permitsOf_singleton,
      permitsOf_nil]
    omega
  · refine ⟨rfl, rfl, List.nil_subset _, ?_, fun hnone => by cases hnone⟩
    simp only [held, hrequest, Option.getD_some, Option.getD_none, permitsOf_append,
      permitsOf_singleton, permitsOf_nil]
    omega
  · refine ⟨rfl, rfl, ?_, ?_, fun _ => Or.inr (not_le.mp hfull)⟩
    · exact List.append_subset.mpr ⟨hbatch, by simpa using hpayload⟩
    · simp only [held, permitsOf_append, permitsOf_singleton]
      omega

theorem takeRead_conserves (h : delivery.Sound config largest unsent) {slot : Nat}
    (htake : delivery.takeRead config slot = some effect) :
    Conserves config largest unsent delivery effect := by
  obtain ⟨records, hwithin, hwaiting, hwindow, hbatch⟩ := h.claimed
  have herase : ∀ read ∈ delivery.window.eraseIdx slot, read.payload ∈ records :=
    fun read hread => hwindow read (List.mem_of_mem_eraseIdx hread)
  rw [takeRead] at htake
  split at htake
  · rename_i payload hrequest hslot
    cases htake
    have hmem : payload ∈ records := hwindow _ (List.mem_of_getElem? hslot)
    obtain ⟨hnextWaiting, hnextWindow, hnextBatch, hheld, hbelow⟩ :=
      accumulate_conserves config { delivery with window := delivery.window.eraseIdx slot }
        hbatch hmem hrequest
    have hsum := List.sum_map_eraseIdx (readHeld config) hslot
    refine ⟨⟨⟨records, hwithin, ?_, ?_, hnextBatch⟩, hbelow⟩, ?_, ?_⟩
    · rw [hnextWaiting]
      exact hwaiting
    · rw [hnextWindow]
      exact herase
    · rw [hheld]
      simp only [readHeld] at hsum
      simp only [held]
      omega
    · rw [hnextWindow]
      simp [queuedPermits, List.filter_eraseIdx_of_neg hslot, isQueued]
  · rename_i payload error hrequest hslot
    cases htake
    have hsum := List.sum_map_eraseIdx (readHeld config) hslot
    refine ⟨⟨⟨records, hwithin, hwaiting, herase, hbatch⟩, h.below⟩, ?_, ?_⟩
    · simp only [readHeld] at hsum
      simp only [held]
      omega
    · simp [queuedPermits, List.filter_eraseIdx_of_neg hslot, isQueued]
  · cases htake

theorem flush_conserves (h : delivery.Sound config largest unsent)
    (hflush : delivery.flush = some effect) :
    Conserves config largest unsent delivery effect := by
  obtain ⟨records, hwithin, hwaiting, hwindow, hbatch⟩ := h.claimed
  rw [flush] at hflush
  split at hflush
  · rename_i hrequest _ _
    split_ifs at hflush
    cases hflush
    refine ⟨⟨⟨records, hwithin, hwaiting, hwindow, List.nil_subset _⟩,
      fun hnone => by cases hnone⟩, ?_, ?_⟩
    · simp [held, hrequest]
    · simp
  · cases hflush

theorem respond_conserves (h : delivery.Sound config largest unsent)
    {statusText : StatusCode → String} {remote : RemoteCollector}
    (hrespond : delivery.respond statusText config remote = some effect) :
    Conserves config largest unsent delivery effect := by
  obtain ⟨records, hwithin, hwaiting, hwindow, hbatch⟩ := h.claimed
  rw [respond] at hrespond
  split at hrespond
  · cases hrespond
  · rename_i sent hrequest
    cases hrespond
    by_cases hfull : delivery.batch ≠ [] ∧
        config.deliveryBatchBytes ≤ batchBytes delivery.batch
    · refine ⟨⟨⟨records, hwithin, hwaiting, hwindow, ?_⟩, ?_⟩, ?_, ?_⟩
      · simp [hfull]
      · intro hnone
        simp [hfull] at hnone
      · simp only [held, hrequest, if_pos hfull, Option.getD_some, permitsOf_nil]
        change _ + permitsOf config sent = _
        omega
      · simp
    · refine ⟨⟨⟨records, hwithin, hwaiting, hwindow, ?_⟩, ?_⟩, ?_, ?_⟩
      · simpa [hfull] using hbatch
      · intro _
        simp only [if_neg hfull]
        rw [not_and_or, not_not, not_le] at hfull
        exact hfull
      · simp only [held, hrequest, if_neg hfull, Option.getD_some, Option.getD_none,
          permitsOf_nil]
        change _ + permitsOf config sent = _
        omega
      · simp

end DeliverMany

namespace DeliveryWorkers

open DeliverMany

variable {statusText : StatusCode → String} {config : RelayConfig} {largest unsent : Nat}

def workerHeld (config : RelayConfig) (worker : Option DeliverMany) : Nat :=
  worker.elim 0 (DeliverMany.held config)

/-- The requests a worker has in the queue, oldest first. -/
def workerQueued (config : RelayConfig) (worker : Option DeliverMany) : List Nat :=
  worker.elim [] fun delivery => queuedPermits config delivery.window

/-- The part of the queue that belongs to one worker. -/
def queueOf (queue : List (Nat × Nat)) (worker : Nat) : List Nat :=
  (queue.filter fun waiter => waiter.1 = worker).map Prod.snd

/-- The invariant of the workers and the semaphore. -/
structure Sound (config : RelayConfig) (largest unsent : Nat) (system : DeliveryWorkers) :
    Prop where
  workers : ∀ delivery, some delivery ∈ system.workers →
    DeliverMany.Sound config largest unsent delivery
  budget : system.available + (system.workers.map (workerHeld config)).sum =
    config.maxDeliveryInflightBytes
  queue : ∀ worker, queueOf system.queue worker =
    workerQueued config (system.workers[worker]?).join
  count : system.workers.length = config.deliveryConcurrency

/-- A claim of records within the bounds. -/
def ClaimsWithin (config : RelayConfig) (largest unsent : Nat) (_ : DeliveryWorkers) :
    DeliveryAction → Prop
  | .claim _ records => ClaimWithin config largest unsent records
  | _ => True

def DeliveryAction.IsClaim : DeliveryAction → Prop
  | .claim _ _ => True
  | _ => False

/-- Some worker or the semaphore can act without a new claim. -/
def Progress (statusText : StatusCode → String) (config : RelayConfig)
    (system : DeliveryWorkers) : Prop :=
  ∃ action, ¬ DeliveryAction.IsClaim action ∧ (step? statusText config system action).isSome

/-- While a worker has claimed records, the system can move. -/
def NeverStuck (statusText : StatusCode → String) (config : RelayConfig)
    (system : DeliveryWorkers) : Prop :=
  ∀ delivery, some delivery ∈ system.workers → Progress statusText config system

variable {system next : DeliveryWorkers} {worker : Nat} {delivery : DeliverMany}

theorem getElem?_of_join (hworker : (system.workers[worker]?).join = some delivery) :
    system.workers[worker]? = some (some delivery) := by
  cases hget : system.workers[worker]? with
  | none =>
      rw [hget] at hworker
      cases hworker
  | some slot =>
      rw [hget] at hworker
      exact congrArg some hworker

theorem mem_of_join (hworker : (system.workers[worker]?).join = some delivery) :
    some delivery ∈ system.workers := List.mem_of_getElem? (getElem?_of_join hworker)

theorem queueOf_append (first last : List (Nat × Nat)) (worker : Nat) :
    queueOf (first ++ last) worker = queueOf first worker ++ queueOf last worker := by
  simp [queueOf]

theorem queueOf_requests (requests : List Nat) (worker other : Nat) :
    queueOf (requests.map fun count => (worker, count)) other =
      if other = worker then requests else [] := by
  induction requests with
  | nil => simp [queueOf]
  | cons count rest ih =>
      simp only [queueOf, List.map_cons, List.filter_cons] at ih ⊢
      split_ifs at ih ⊢ with hsame <;> simp_all

theorem join_set (hworker : worker < system.workers.length) (slot : Option DeliverMany)
    (other : Nat) :
    ((system.workers.set worker slot)[other]?).join =
      if other = worker then slot else (system.workers[other]?).join := by
  by_cases hsame : other = worker
  · subst hsame
    rw [List.getElem?_set_self hworker, if_pos rfl]
    rfl
  · rw [List.getElem?_set_ne (Ne.symm hsame), if_neg hsame]

/-- Replacing one worker keeps the invariant when permits and requests add up. -/
theorem Sound.set (h : system.Sound config largest unsent)
    {old new : Option DeliverMany} (hworker : system.workers[worker]? = some old)
    (hnew : ∀ delivery, new = some delivery → DeliverMany.Sound config largest unsent delivery)
    {available : Nat} {queue : List (Nat × Nat)}
    (hheld : available + workerHeld config new = system.available + workerHeld config old)
    (hqueue : ∀ other, queueOf queue other =
      if other = worker then workerQueued config new else queueOf system.queue other) :
    Sound config largest unsent ⟨available, queue, system.workers.set worker new⟩ := by
  obtain ⟨hlt, _⟩ := List.getElem?_eq_some_iff.mp hworker
  refine ⟨?_, ?_, ?_, ?_⟩
  · intro delivery hmem
    rcases List.mem_or_eq_of_mem_set hmem with hold | hsame
    · exact h.workers delivery hold
    · exact hnew delivery hsame.symm
  · have hsum := List.sum_map_set (workerHeld config) hworker new
    have hbudget := h.budget
    dsimp only
    omega
  · intro other
    rw [hqueue other, join_set hlt new other]
    split_ifs
    · rfl
    · exact h.queue other
  · simpa using h.count

theorem onWorker_sound (h : system.Sound config largest unsent)
    {act : DeliverMany → Option Effect}
    (hact : ∀ delivery effect, DeliverMany.Sound config largest unsent delivery →
      act delivery = some effect → Conserves config largest unsent delivery effect)
    (hnext : system.onWorker worker act = some next) : next.Sound config largest unsent := by
  rw [onWorker, Option.bind_eq_bind, Option.bind_eq_some_iff] at hnext
  obtain ⟨delivery, hworker, hnext⟩ := hnext
  rw [Option.bind_eq_bind, Option.bind_eq_some_iff] at hnext
  obtain ⟨effect, heffect, hnext⟩ := hnext
  cases hnext
  have hconserves := hact delivery effect (h.workers delivery (mem_of_join hworker)) heffect
  refine h.set (getElem?_of_join hworker) ?_ ?_ ?_
  · intro delivery' hsame
    cases hsame
    exact hconserves.sound
  · have hheld := hconserves.held
    simp only [workerHeld, Option.elim_some]
    omega
  · intro other
    rw [queueOf_append, queueOf_requests, h.queue other]
    split_ifs with hsame
    · subst hsame
      rw [hworker]
      exact hconserves.queued.symm
    · exact List.append_nil _

/-- Admission takes the oldest request of the worker and turns it into held permits. -/
theorem admitRead_spec {window : List BodyRead} {count : Nat} {rest : List Nat}
    (hqueued : queuedPermits config window = count :: rest) :
    queuedPermits config (admitRead window) = rest ∧
      ((admitRead window).map (readHeld config)).sum =
        (window.map (readHeld config)).sum + count ∧
      (admitRead window).map BodyRead.payload = window.map BodyRead.payload := by
  induction window with
  | nil => cases hqueued
  | cons read others ih =>
      obtain ⟨payload, state⟩ := read
      rw [admitRead]
      by_cases hstate : state = .queued
      · subst hstate
        simp only [queuedPermits, isQueued, List.filter_cons] at hqueued
        simp only [decide_true, if_true, List.map_cons, List.cons.injEq] at hqueued
        obtain ⟨rfl, rfl⟩ := hqueued
        refine ⟨?_, ?_, ?_⟩
        · simp [queuedPermits, isQueued]
        · simp only [if_true, List.map_cons, List.sum_cons, readHeld]
          omega
        · simp
      · have htail : queuedPermits config others = count :: rest := by
          simpa [queuedPermits, isQueued, hstate] using hqueued
        obtain ⟨hrest, hsum, hpayloads⟩ := ih htail
        rw [if_neg hstate]
        refine ⟨?_, ?_, ?_⟩
        · simpa [queuedPermits, isQueued, hstate] using hrest
        · simp only [List.map_cons, List.sum_cons]
          omega
        · simp [hpayloads]

theorem grant_sound (h : system.Sound config largest unsent)
    (hnext : system.grant = some next) : next.Sound config largest unsent := by
  rw [grant] at hnext
  split at hnext
  · cases hnext
  · rename_i worker count rest hqueue
    split at hnext
    · cases hnext
    · rename_i delivery hworker
      split_ifs at hnext with hfits
      cases hnext
      have hbusy := h.workers delivery (mem_of_join hworker)
      have hmine := h.queue worker
      rw [hqueue, hworker] at hmine
      have hqueued : queuedPermits config delivery.window = count :: queueOf rest worker := by
        simpa [queueOf, workerQueued] using hmine.symm
      obtain ⟨hrest, hsum, hpayloads⟩ := admitRead_spec hqueued
      refine h.set (getElem?_of_join hworker) ?_ ?_ ?_
      · intro delivery' hsame
        cases hsame
        obtain ⟨records, hwithin, hwaiting, hwindow, hbatch⟩ := hbusy.claimed
        refine ⟨⟨records, hwithin, hwaiting, ?_, hbatch⟩, hbusy.below⟩
        intro read hread
        have hpayload : read.payload ∈ delivery.window.map BodyRead.payload :=
          hpayloads ▸ List.mem_map_of_mem hread
        obtain ⟨old, hold, hsame⟩ := List.mem_map.mp hpayload
        exact hsame ▸ hwindow old hold
      · simp only [workerHeld, Option.elim_some, DeliverMany.held]
        omega
      · intro other
        by_cases hsame : other = worker
        · subst hsame
          rw [if_pos rfl]
          exact hrest.symm
        · rw [if_neg hsame, hqueue]
          simp [queueOf, Ne.symm hsame]

theorem step_sound (system : DeliveryWorkers) (action : DeliveryAction)
    (h : system.Sound config largest unsent) (hclaims : ClaimsWithin config largest unsent
      system action) : (step statusText config system action).Sound config largest unsent := by
  rw [step]
  cases hnext : step? statusText config system action with
  | none => exact h
  | some next =>
      rw [Option.getD_some]
      cases action with
      | claim worker records =>
          rw [step?] at hnext
          split at hnext
          · rename_i hworker
            cases hnext
            have hfree := h.queue worker
            rw [hworker] at hfree
            refine h.set hworker ?_ rfl ?_
            · intro delivery hsame
              cases hsame
              exact ⟨⟨records, hclaims, List.Subset.refl _, by simp, List.nil_subset _⟩,
                fun _ => Or.inl rfl⟩
            · intro other
              split_ifs with hsame
              · rw [hsame]
                exact hfree
              · rfl
          · cases hnext
      | start worker => exact onWorker_sound h (fun _ _ hbusy => startRead_conserves hbusy) hnext
      | grant => exact grant_sound h hnext
      | load worker slot outcome => exact onWorker_sound h (fun _ _ hbusy => loadRead_conserves hbusy) hnext
      | take worker slot => exact onWorker_sound h (fun _ _ hbusy => takeRead_conserves hbusy) hnext
      | flush worker => exact onWorker_sound h (fun _ _ hbusy => flush_conserves hbusy) hnext
      | respond worker remote => exact onWorker_sound h (fun _ _ hbusy => respond_conserves hbusy) hnext
      | finish worker =>
          rw [step?] at hnext
          split at hnext
          · rename_i delivery hworker
            split_ifs at hnext with hdone
            cases hnext
            simp only [exhausted, Bool.and_eq_true, List.isEmpty_iff,
              Option.isNone_iff_eq_none] at hdone
            obtain ⟨⟨⟨_, hwindow⟩, hbatch⟩, hrequest⟩ := hdone
            refine h.set (getElem?_of_join hworker) (fun _ hsame => by cases hsame) ?_ ?_
            · simp [workerHeld, DeliverMany.held, hwindow, hbatch, hrequest]
            · intro other
              split_ifs with hsame
              · subst hsame
                rw [h.queue, hworker]
                simp [workerQueued, hwindow, queuedPermits]
              · rfl
          · cases hnext

theorem idle_sound (config : RelayConfig) (largest unsent : Nat) :
    (idle config).Sound config largest unsent := by
  refine ⟨?_, ?_, ?_, ?_⟩
  · intro delivery hmem
    cases List.eq_of_mem_replicate hmem
  · simp [idle, workerHeld]
  · intro worker
    rw [idle, List.getElem?_replicate]
    split_ifs <;> rfl
  · simp [idle]

section Blocked

/-- A worker whose next step needs permits from the semaphore. -/
structure Blocked (config : RelayConfig) (delivery : DeliverMany) : Prop where
  collecting : delivery.request = none
  queued : ∀ read ∈ delivery.window, read.state = .queued
  reading : delivery.window ≠ []

theorem onWorker_isSome {act : DeliverMany → Option Effect}
    (hworker : (system.workers[worker]?).join = some delivery)
    (hact : (act delivery).isSome) : (system.onWorker worker act).isSome := by
  obtain ⟨effect, heffect⟩ := Option.isSome_iff_exists.mp hact
  simp [onWorker, hworker, heffect]

/-- A worker that is not blocked can act. -/
theorem progress_of_not_blocked (hworker : (system.workers[worker]?).join = some delivery)
    (hfree : ¬ Blocked config delivery) : Progress statusText config system := by
  by_cases hrequest : delivery.request = none
  · by_cases hqueued : ∀ read ∈ delivery.window, read.state = .queued
    · have hwindow : delivery.window = [] := by
        by_contra hreading
        exact hfree ⟨hrequest, hqueued, hreading⟩
      cases hwaiting : delivery.waiting with
      | cons payload rest =>
          -- the window has room, so the next read starts
          have hroom : 0 < deliveryReadConcurrency config := by
            rw [deliveryReadConcurrency]
            omega
          refine ⟨.start worker, id, onWorker_isSome hworker ?_⟩
          rw [startRead, hrequest, hwaiting]
          simp only [hwindow, List.length_nil, if_pos hroom]
          split <;> rfl
      | nil =>
          by_cases hbatch : delivery.batch = []
          · refine ⟨.finish worker, id, ?_⟩
            simp [step?, hworker, exhausted, hwaiting, hwindow, hbatch, hrequest]
          · refine ⟨.flush worker, id, onWorker_isSome hworker ?_⟩
            simp [flush, hrequest, hwaiting, hwindow, hbatch]
    · push Not at hqueued
      obtain ⟨read, hread, hstate⟩ := hqueued
      obtain ⟨slot, hslot⟩ := List.mem_iff_getElem?.mp hread
      obtain ⟨payload, state⟩ := read
      cases state with
      | queued => exact absurd rfl hstate
      | loading =>
          refine ⟨.load worker slot (.ok ()), id, onWorker_isSome hworker ?_⟩
          simp [loadRead, hslot]
      | loaded =>
          refine ⟨.take worker slot, id, onWorker_isSome hworker ?_⟩
          simp [takeRead, hrequest, hslot]
      | failed error =>
          refine ⟨.take worker slot, id, onWorker_isSome hworker ?_⟩
          simp [takeRead, hrequest, hslot]
  · obtain ⟨sent, hsent⟩ := Option.ne_none_iff_exists'.mp hrequest
    refine ⟨.respond worker ⟨fun _ => .error "", fun _ => .error ""⟩, id,
      onWorker_isSome hworker ?_⟩
    simp [respond, hsent]

/-- A blocked worker holds the permits of its unsent batch and no others. -/
theorem Blocked.held_le (hblocked : Blocked config delivery)
    (h : DeliverMany.Sound config largest unsent delivery) :
    delivery.held config ≤ unsent := by
  have hwindow : (delivery.window.map (readHeld config)).sum = 0 := by
    rw [List.sum_eq_zero_iff]
    intro weight hweight
    obtain ⟨read, hread, rfl⟩ := List.mem_map.mp hweight
    rw [readHeld, hblocked.queued read hread]
  obtain ⟨records, hwithin, _, _, hbatch⟩ := h.claimed
  have hunsent : permitsOf config delivery.batch ≤ unsent := by
    rcases h.below hblocked.collecting with hnil | hbelow
    · rw [hnil]
      exact Nat.zero_le _
    · exact hwithin.unsent _ hbatch hbelow
  rw [DeliverMany.held, hwindow, hblocked.collecting]
  simpa using hunsent

/-- When every worker is blocked, all permits but those of the unsent batches are
free, which covers any request. -/
theorem progress_of_blocked (h : system.Sound config largest unsent)
    (hbudget : config.deliveryConcurrency * unsent + largest ≤ config.maxDeliveryInflightBytes)
    (hblocked : ∀ delivery, some delivery ∈ system.workers → Blocked config delivery)
    {busy : DeliverMany} (hbusy : some busy ∈ system.workers) :
    Progress statusText config system := by
  have hheld : (system.workers.map (workerHeld config)).sum ≤
      config.deliveryConcurrency * unsent := by
    have hle := List.sum_le_card_nsmul (system.workers.map (workerHeld config)) unsent (by
      intro weight hweight
      obtain ⟨slot, hslot, rfl⟩ := List.mem_map.mp hweight
      cases slot with
      | none => exact Nat.zero_le _
      | some delivery => exact (hblocked delivery hslot).held_le (h.workers delivery hslot))
    rwa [List.length_map, h.count, smul_eq_mul] at hle
  obtain ⟨owner, howner⟩ := List.mem_iff_getElem?.mp hbusy
  have howned := h.queue owner
  rw [howner] at howned
  cases hqueue : system.queue with
  | nil =>
      -- a blocked worker has a request in the queue
      obtain ⟨read, hread⟩ := List.exists_mem_of_ne_nil _ (hblocked busy hbusy).reading
      have hqueued : isQueued read = true :=
        decide_eq_true ((hblocked busy hbusy).queued read hread)
      have hmem : permits config read.payload ∈ queuedPermits config busy.window :=
        List.mem_map_of_mem (List.mem_filter.mpr ⟨hread, hqueued⟩)
      rw [hqueue] at howned
      change [] = queuedPermits config busy.window at howned
      rw [← howned] at hmem
      cases hmem
  | cons waiter rest =>
      obtain ⟨worker, count⟩ := waiter
      have hmine := h.queue worker
      rw [hqueue] at hmine
      cases hworker : (system.workers[worker]?).join with
      | none =>
          rw [hworker] at hmine
          simp [queueOf, workerQueued] at hmine
      | some delivery =>
          rw [hworker] at hmine
          have hsound := h.workers delivery (mem_of_join hworker)
          have hcount : count ∈ queuedPermits config delivery.window := by
            change _ = queuedPermits config delivery.window at hmine
            rw [← hmine]
            simp [queueOf]
          obtain ⟨read, hread, rfl⟩ := List.mem_map.mp hcount
          obtain ⟨records, hwithin, _, hwindow, _⟩ := hsound.claimed
          have hlargest := hwithin.largest _ (hwindow read (List.mem_filter.mp hread).1)
          have htotal := h.budget
          have hfits : permits config read.payload ≤ system.available := by omega
          refine ⟨.grant, id, ?_⟩
          simp [step?, grant, hqueue, hworker, hfits]

end Blocked

/-- With a budget that covers one unsent batch of every worker and one more body,
no run of the workers gets stuck. -/
theorem neverStuck_always (statusText : StatusCode → String) {config : RelayConfig}
    {largest unsent : Nat}
    (hbudget : config.deliveryConcurrency * unsent + largest ≤ config.maxDeliveryInflightBytes)
    {trace : List DeliveryAction}
    (hclaims : Machine.Along (step statusText config) (ClaimsWithin config largest unsent)
      (idle config) trace) :
    Machine.Always (step statusText config) (NeverStuck statusText config) (idle config)
      trace := by
  refine Machine.always_of_preserves_along step_sound ?_ (idle_sound config largest unsent)
    hclaims
  intro system hsound delivery hbusy
  by_cases hblocked : ∀ delivery, some delivery ∈ system.workers → Blocked config delivery
  · exact progress_of_blocked hsound hbudget hblocked hbusy
  · push Not at hblocked
    obtain ⟨free, hfree, hnot⟩ := hblocked
    obtain ⟨worker, hworker⟩ := List.mem_iff_getElem?.mp hfree
    have hjoin : (system.workers[worker]?).join = some free := by
      rw [hworker]
      rfl
    exact progress_of_not_blocked hjoin hnot

end DeliveryWorkers

namespace TightBudget

/-- One worker, batches of up to 10000 bytes and a budget of 1000 bytes. -/
def config : RelayConfig := ⟨1, 100, 10, 10000, 1000, 1000, 100, 10000, 999⟩

/-- Two workers, batches of up to 500 bytes and a budget of 1598 bytes. -/
def roomy : RelayConfig := ⟨2, 100, 10, 500, 1598, 1000, 100, 10000, 999⟩

/-- A claimed record of 600 bytes, its newline included. -/
def claimed (captureId : String) : DeliveryPayload :=
  ⟨⟨captureId, "sha", 600, .inflight, 1, 0, 0, none, none, none⟩, List.replicate 599 32⟩

theorem claimed_length (captureId : String) :
    (claimed captureId).record.bytes = (claimed captureId).body.length + 1 := by
  show 600 = (List.replicate 599 (32 : UInt8)).length + 1
  rw [List.length_replicate]

def records : List DeliveryPayload := [claimed "a", claimed "b"]

/-- Both reads queue; the first body is loaded and put into the batch. -/
def trace : List DeliveryAction :=
  [.claim 0 records, .start 0, .start 0, .grant, .load 0 0 (.ok ()), .take 0 0]

def stuck : DeliveryWorkers :=
  Machine.run (DeliveryWorkers.step (fun _ => "") config) (DeliveryWorkers.idle config) trace

/-- The batch waits for the second body, and the second body for the batch. -/
def deadlock : DeliveryWorkers :=
  ⟨400, [(0, 600)], [some ⟨[], [⟨claimed "b", .queued⟩], [claimed "a"], none, []⟩]⟩

set_option maxRecDepth 4000 in
theorem stuck_eq : stuck = deadlock := by rfl

theorem deadlock_no_progress : ¬ DeliveryWorkers.Progress (fun _ => "") config deadlock := by
  rintro ⟨action, hclaim, henabled⟩
  cases action with
  | claim worker records => exact hclaim trivial
  | grant => cases henabled
  | start worker => rcases worker with _ | worker <;> cases henabled
  | load worker slot outcome =>
      rcases worker with _ | worker
      · rcases slot with _ | slot <;> cases henabled
      · cases henabled
  | take worker slot =>
      rcases worker with _ | worker
      · rcases slot with _ | slot <;> cases henabled
      · cases henabled
  | flush worker => rcases worker with _ | worker <;> cases henabled
  | respond worker remote => rcases worker with _ | worker <;> cases henabled
  | finish worker => rcases worker with _ | worker <;> cases henabled

theorem roomy_within : ClaimWithin roomy 600 499 records := by
  refine ⟨by decide, fun batch hbatch hbelow => ?_⟩
  refine permitsOf_le_of_recorded (fun payload hpayload => ?_) hbelow (by decide)
  have hmem := hbatch hpayload
  simp only [records, List.mem_cons, List.not_mem_nil, or_false] at hmem
  rcases hmem with rfl | rfl <;> exact claimed_length _

end TightBudget

/-- A budget that the relay accepts and that covers each record deadlocks. -/
theorem neverStuck_not_always :
    TightBudget.config.check = .ok () ∧
      (∀ payload ∈ TightBudget.records,
        payload.record.bytes ≤ TightBudget.config.maxDeliveryInflightBytes) ∧
      ¬ Machine.Always (DeliveryWorkers.step (fun _ => "") TightBudget.config)
        (DeliveryWorkers.NeverStuck (fun _ => "") TightBudget.config)
        (DeliveryWorkers.idle TightBudget.config) TightBudget.trace := by
  refine ⟨by rfl, by decide, fun halways => ?_⟩
  have hstuck := halways.run
  rw [show Machine.run _ _ _ = TightBudget.deadlock from TightBudget.stuck_eq] at hstuck
  exact TightBudget.deadlock_no_progress (hstuck _ List.mem_cons_self)

/-- The same two claims under a budget with room for the unsent batches. -/
theorem neverStuck_always_roomy :
    Machine.Always (DeliveryWorkers.step (fun _ => "") TightBudget.roomy)
      (DeliveryWorkers.NeverStuck (fun _ => "") TightBudget.roomy)
      (DeliveryWorkers.idle TightBudget.roomy) TightBudget.trace :=
  DeliveryWorkers.neverStuck_always (fun _ => "")
    (show TightBudget.roomy.deliveryConcurrency * 499 + 600 ≤
      TightBudget.roomy.maxDeliveryInflightBytes by decide)
    ⟨TightBudget.roomy_within, trivial, trivial, trivial, trivial, trivial, trivial⟩

end ChipTrace
