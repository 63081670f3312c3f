/-
The workers that run `deliver_many` under the shared delivery body budget.

A worker reads the bodies of its claimed records through a window of concurrent
reads.  Each read first takes its permits from a first-come, first-served
semaphore, and a loaded body keeps them until its batch has been answered.
While a batch is being sent the worker does not look at its reads.
-/
import ChipTrace.Lib.Machine
import ChipTrace.Relay.Delivery
import Mathlib.Algebra.BigOperators.Group.List.Basic

namespace ChipTrace

inductive ReadState where
  | queued
  | loading
  | loaded
  | failed (error : String)
  deriving DecidableEq

/-- One read of the window. -/
structure BodyRead where
  payload : DeliveryPayload
  state : ReadState

/-- The state of one `deliver_many` call. -/
structure DeliverMany where
  waiting : List DeliveryPayload
  window : List BodyRead
  batch : List DeliveryPayload
  request : Option (List DeliveryPayload)
  updates : List DeliveryUpdate

/-- The semaphore, with the worker and the permits of each waiter, and the
workers; an idle worker is `none`. -/
structure DeliveryWorkers where
  available : Nat
  queue : List (Nat × Nat)
  workers : List (Option DeliverMany)

def deliveryReadConcurrency (config : RelayConfig) : Nat :=
  max 4 (min config.deliveryConcurrency 16)

/-- The permits a read asks for. -/
def reservation (config : RelayConfig) (record : DeliveryRecord) : Except String Nat :=
  let bytes :=
    if record.bytes = 0 then U64.saturatingAdd config.maxEnvelopeBytes 1 else record.bytes
  if config.maxDeliveryInflightBytes < bytes then
    .error ("capture " ++ record.captureId ++ " requires " ++ toString bytes ++
      " delivery bytes, above Relay budget " ++ toString config.maxDeliveryInflightBytes)
  else if 2 ^ 32 ≤ max bytes 1 then
    .error "capture length exceeds semaphore reservation limit"
  else .ok (max bytes 1)

/-- The permits a payload holds once its read has been admitted. -/
def permits (config : RelayConfig) (payload : DeliveryPayload) : Nat :=
  match reservation config payload.record with
  | .ok count => count
  | .error _ => 0

def itemBytes (payload : DeliveryPayload) : Nat := U64.saturatingAdd payload.body.length 1

/-- The running `batch_bytes` of a batch. -/
def batchBytes (batch : List DeliveryPayload) : Nat :=
  batch.foldl (fun total payload => U64.saturatingAdd total (itemBytes payload)) 0

/-- What an action of one worker does to it and to the semaphore. -/
structure Effect where
  next : DeliverMany
  released : Nat
  requests : List Nat

namespace DeliverMany

variable (statusText : StatusCode → String) (config : RelayConfig) (delivery : DeliverMany)

/-- First poll of the next read: it queues for its permits. -/
def startRead : Option Effect :=
  match delivery.request, delivery.waiting with
  | none, payload :: rest =>
      if delivery.window.length < deliveryReadConcurrency config then
        match reservation config payload.record with
        | .error error => some
            { next := { delivery with
                waiting := rest
                window := delivery.window ++ [⟨payload, .failed error⟩] }
              released := 0
              requests := [] }
        | .ok count => some
            { next := { delivery with
                waiting := rest
                window := delivery.window ++ [⟨payload, .queued⟩] }
              released := 0
              requests := [count] }
      else none
  | _, _ => none

/-- The oldest queued read gets its permits. -/
def admitRead : List BodyRead → List BodyRead
  | [] => []
  | read :: rest =>
      if read.state = .queued then ⟨read.payload, .loading⟩ :: rest
      else read :: admitRead rest

/-- The store answers an admitted read; a failed read gives its permits back. -/
def loadRead (slot : Nat) (outcome : Except String Unit) : Option Effect :=
  match delivery.window[slot]? with
  | some ⟨payload, .loading⟩ =>
      match outcome with
      | .ok () => some
          { next := { delivery with window := delivery.window.set slot ⟨payload, .loaded⟩ }
            released := 0
            requests := [] }
      | .error error => some
          { next := { delivery with
              window := delivery.window.set slot ⟨payload, .failed error⟩ }
            released := permits config payload
            requests := [] }
  | _ => none

/-- Put a loaded payload into the batch, sending what is full. -/
def accumulate (payload : DeliveryPayload) : DeliverMany :=
  if delivery.batch ≠ [] ∧
      config.deliveryBatchBytes <
        U64.saturatingAdd (batchBytes delivery.batch) (itemBytes payload) then
    { delivery with batch := [payload], request := some delivery.batch }
  else
    let batch := delivery.batch ++ [payload]
    if config.deliveryBatchBytes ≤ batchBytes batch then
      { delivery with batch := [], request := some batch }
    else { delivery with batch := batch }

/-- The loop takes a finished read out of the window. -/
def takeRead (slot : Nat) : Option Effect :=
  match delivery.request, delivery.window[slot]? with
  | none, some ⟨payload, .loaded⟩ =>
      let taken := { delivery with window := delivery.window.eraseIdx slot }
      some ⟨taken.accumulate config payload, 0, []⟩
  | none, some ⟨payload, .failed error⟩ => some
      { next := { delivery with
          window := delivery.window.eraseIdx slot
          updates := delivery.updates ++ [retryUpdate config payload.record error] }
        released := 0
        requests := [] }
  | _, _ => none

/-- The stream is exhausted and the rest of the batch is sent. -/
def flush : Option Effect :=
  match delivery.request, delivery.waiting, delivery.window with
  | none, [], [] =>
      if delivery.batch ≠ [] then
        some ⟨{ delivery with batch := [], request := some delivery.batch }, 0, []⟩
      else none
  | _, _, _ => none

/-- The request ends; its payloads are dropped, and an item that was kept back is
sent at once when it fills a batch. -/
def respond (remote : RemoteCollector) : Option Effect :=
  match delivery.request with
  | none => none
  | some sent =>
      let updates := delivery.updates ++ sendDeliveryBatch statusText config remote sent
      let full := delivery.batch ≠ [] ∧ config.deliveryBatchBytes ≤ batchBytes delivery.batch
      some
        { next := { delivery with
            updates := updates
            batch := if full then [] else delivery.batch
            request := if full then some delivery.batch else none }
          released := (sent.map (permits config)).sum
          requests := [] }

/-- Nothing is left to read or to send. -/
def exhausted : Bool :=
  delivery.waiting.isEmpty && delivery.window.isEmpty && delivery.batch.isEmpty &&
    delivery.request.isNone

end DeliverMany

inductive DeliveryAction where
  | claim (worker : Nat) (records : List DeliveryPayload)
  | start (worker : Nat)
  | grant
  | load (worker slot : Nat) (outcome : Except String Unit)
  | take (worker slot : Nat)
  | flush (worker : Nat)
  | respond (worker : Nat) (remote : RemoteCollector)
  | finish (worker : Nat)

namespace DeliveryWorkers

variable (statusText : StatusCode → String) (config : RelayConfig)

/-- The relay before its workers claim anything. -/
def idle : DeliveryWorkers :=
  { available := config.maxDeliveryInflightBytes
    queue := []
    workers := List.replicate config.deliveryConcurrency none }

/-- An action of one busy worker. -/
def onWorker (system : DeliveryWorkers) (worker : Nat)
    (act : DeliverMany → Option Effect) : Option DeliveryWorkers := do
  let delivery ← (system.workers[worker]?).join
  let effect ← act delivery
  pure
    { available := system.available + effect.released
      queue := system.queue ++ effect.requests.map fun count => (worker, count)
      workers := system.workers.set worker (some effect.next) }

/-- The head of the queue gets its permits when all of them are free. -/
def grant (system : DeliveryWorkers) : Option DeliveryWorkers :=
  match system.queue with
  | [] => none
  | (worker, count) :: rest =>
      match (system.workers[worker]?).join with
      | none => none
      | some delivery =>
          if count ≤ system.available then
            some
              { available := system.available - count
                queue := rest
                workers := system.workers.set worker
                  (some { delivery with window := DeliverMany.admitRead delivery.window }) }
          else none

/-- The successor state of an enabled action. -/
def step? (system : DeliveryWorkers) : DeliveryAction → Option DeliveryWorkers
  | .claim worker records =>
      match system.workers[worker]? with
      | some none => some { system with
          workers := system.workers.set worker (some ⟨records, [], [], none, []⟩) }
      | _ => none
  | .start worker => system.onWorker worker fun delivery => delivery.startRead config
  | .grant => system.grant
  | .load worker slot outcome =>
      system.onWorker worker fun delivery => delivery.loadRead config slot outcome
  | .take worker slot => system.onWorker worker fun delivery => delivery.takeRead config slot
  | .flush worker => system.onWorker worker DeliverMany.flush
  | .respond worker remote =>
      system.onWorker worker fun delivery => delivery.respond statusText config remote
  | .finish worker =>
      match (system.workers[worker]?).join with
      | some delivery =>
          if delivery.exhausted then
            some { system with workers := system.workers.set worker none }
          else none
      | none => none

/-- A disabled action leaves the state as it is. -/
def step (system : DeliveryWorkers) (action : DeliveryAction) : DeliveryWorkers :=
  (step? statusText config system action).getD system

end DeliveryWorkers

end ChipTrace
