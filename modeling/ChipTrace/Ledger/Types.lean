/-
The delivery ledger's rows, counters, index keys and durable state.  Clock
values are 64-bit machine integers because the index keys pad them to twenty
digits; counters only ever move by one and are natural numbers.
-/
import ChipTrace.Lib.SecondaryIndex
import ChipTrace.Lib.Decimal
import ChipTrace.Quality.Counters
import ChipTrace.Store.Types

namespace ChipTrace

inductive DeliveryState where
  | pending
  | inflight
  | delivered
  | conflict
  | failed
  deriving DecidableEq, Repr

theorem DeliveryState.pending_settled : DeliveryState.pending ≠ .inflight := by decide

theorem DeliveryState.delivered_settled : DeliveryState.delivered ≠ .inflight := by decide

theorem DeliveryState.failed_settled : DeliveryState.failed ≠ .inflight := by decide

structure DeliveryRecord where
  captureId : String
  rawSha256 : String
  bytes : Nat
  state : DeliveryState
  attempts : Nat
  nextAttemptUnixMs : UInt64
  leaseUntilUnixMs : UInt64
  lastAttemptAt : Option String
  deliveredAt : Option String
  lastError : Option String
  deriving DecidableEq

/-- The verdict of a delivery attempt.  No constructor of the source puts a
record in flight, and the delay is a whole number of milliseconds. -/
structure DeliveryUpdate where
  captureId : String
  state : DeliveryState
  error : Option String
  nextAttempt : Option Nat
  settles : state ≠ .inflight
  deriving DecidableEq

structure DeliveryCounters where
  total : Nat
  pending : Nat
  inflight : Nat
  delivered : Nat
  conflicts : Nat
  failed : Nat
  attempts : Nat
  deriving DecidableEq, Repr

namespace DeliveryCounters

def zero : DeliveryCounters := ⟨0, 0, 0, 0, 0, 0, 0⟩

/-- The counter that belongs to a state. -/
def ofState (counters : DeliveryCounters) : DeliveryState → Nat
  | .pending => counters.pending
  | .inflight => counters.inflight
  | .delivered => counters.delivered
  | .conflict => counters.conflicts
  | .failed => counters.failed

theorem ext_ofState {left right : DeliveryCounters} (htotal : left.total = right.total)
    (hattempts : left.attempts = right.attempts)
    (hstate : ∀ state, left.ofState state = right.ofState state) : left = right := by
  have hpending := hstate .pending
  have hinflight := hstate .inflight
  have hdelivered := hstate .delivered
  have hconflict := hstate .conflict
  have hfailed := hstate .failed
  cases left
  cases right
  simp only [ofState] at hpending hinflight hdelivered hconflict hfailed
  simp_all

end DeliveryCounters

def incrementDeliveryState (counters : DeliveryCounters) :
    DeliveryState → DeliveryCounters
  | .pending => { counters with pending := counters.pending + 1 }
  | .inflight => { counters with inflight := counters.inflight + 1 }
  | .delivered => { counters with delivered := counters.delivered + 1 }
  | .conflict => { counters with conflicts := counters.conflicts + 1 }
  | .failed => { counters with failed := counters.failed + 1 }

/-- Subtraction of natural numbers stops at zero, as `saturating_sub` does. -/
def decrementDeliveryState (counters : DeliveryCounters) :
    DeliveryState → DeliveryCounters
  | .pending => { counters with pending := counters.pending - 1 }
  | .inflight => { counters with inflight := counters.inflight - 1 }
  | .delivered => { counters with delivered := counters.delivered - 1 }
  | .conflict => { counters with conflicts := counters.conflicts - 1 }
  | .failed => { counters with failed := counters.failed - 1 }

section CounterUpdates

variable (counters : DeliveryCounters) (at_ state : DeliveryState)

@[simp] theorem increment_ofState :
    (incrementDeliveryState counters at_).ofState state =
      counters.ofState state + if at_ = state then 1 else 0 := by
  cases at_ <;> cases state <;> simp [incrementDeliveryState, DeliveryCounters.ofState]

@[simp] theorem decrement_ofState :
    (decrementDeliveryState counters at_).ofState state =
      counters.ofState state - if at_ = state then 1 else 0 := by
  cases at_ <;> cases state <;> simp [decrementDeliveryState, DeliveryCounters.ofState]

@[simp] theorem increment_total :
    (incrementDeliveryState counters at_).total = counters.total := by
  cases at_ <;> rfl

@[simp] theorem decrement_total :
    (decrementDeliveryState counters at_).total = counters.total := by
  cases at_ <;> rfl

@[simp] theorem increment_attempts :
    (incrementDeliveryState counters at_).attempts = counters.attempts := by
  cases at_ <;> rfl

@[simp] theorem decrement_attempts :
    (decrementDeliveryState counters at_).attempts = counters.attempts := by
  cases at_ <;> rfl

end CounterUpdates

/-- Index key: the due time padded to twenty digits, a colon, the id. -/
def deliveryIndexKey (dueUnixMs : UInt64) (captureId : String) : String :=
  String.ofList (Decimal.padded 20 dueUnixMs.toNat ++ ':' :: captureId.toList)

/-- The first `size` bytes of a text, when they end at a character boundary. -/
def bytePrefix? : Nat → List Char → Option (List Char)
  | 0, _ => some []
  | _ + 1, [] => none
  | size + 1, c :: rest =>
      if c.utf8Size ≤ size + 1 then
        (bytePrefix? (size + 1 - c.utf8Size) rest).map (c :: ·)
      else none

/-- The due time of an index key. -/
def deliveryIndexDue (key : String) : Option UInt64 := do
  let digits ← bytePrefix? 20 key.toList
  let due ← Decimal.parseUnsigned digits
  if due < U64.limit then some (UInt64.ofNat due) else none

theorem toNat_lt_padded (due : UInt64) : due.toNat < 10 ^ 20 :=
  lt_of_lt_of_le due.toNat_lt (by decide)

/-- Index keys name their due time and their record. -/
theorem deliveryIndexKey_injective {due due' : UInt64} {captureId captureId' : String}
    (hkey : deliveryIndexKey due captureId = deliveryIndexKey due' captureId') :
    due = due' ∧ captureId = captureId' := by
  have hchars := String.ofList_inj.mp hkey
  have hsplit := List.append_inj hchars (by simp)
  have hdue := Decimal.padded_injective (toNat_lt_padded due) (toNat_lt_padded due') hsplit.1
  exact ⟨UInt64.toNat_inj.mp hdue, String.toList_inj.mp (List.cons.inj hsplit.2).2⟩

theorem bytePrefix?_append {taken : List Char} (rest : List Char) (hascii : ∀ c ∈ taken, c.utf8Size = 1) :
    bytePrefix? taken.length (taken ++ rest) = some taken := by
  induction taken with
  | nil => cases rest <;> rfl
  | cons c taken ih =>
      have hsize := hascii c List.mem_cons_self
      have htail := ih fun other hother => hascii other (List.mem_cons_of_mem _ hother)
      simp [bytePrefix?, hsize, htail]

theorem padded_ascii (width n : Nat) : ∀ c ∈ Decimal.padded width n, c.utf8Size = 1 := by
  induction width generalizing n with
  | zero => simp [Decimal.padded]
  | succ width ih =>
      intro c hc
      rw [Decimal.padded, List.mem_append, List.mem_singleton] at hc
      rcases hc with hc | rfl
      · exact ih (n / 10) c hc
      · have hdigit : ∀ d < 10, (Char.ofNat (48 + d)).utf8Size = 1 := by decide
        exact hdigit (n % 10) (Nat.mod_lt n (by decide))

@[simp] theorem deliveryIndexDue_key (due : UInt64) (captureId : String) :
    deliveryIndexDue (deliveryIndexKey due captureId) = some due := by
  have hprefix : bytePrefix? 20 (Decimal.padded 20 due.toNat ++ ':' :: captureId.toList) =
      some (Decimal.padded 20 due.toNat) := by
    have h := bytePrefix?_append (':' :: captureId.toList) (padded_ascii 20 due.toNat)
    rwa [Decimal.padded_length] at h
  have hparse := Decimal.parseUnsigned_padded (by decide : 0 < 20) (toNat_lt_padded due)
  have hlt : due.toNat < U64.limit := due.toNat_lt
  simp [deliveryIndexDue, deliveryIndexKey, hprefix, hparse, hlt]

structure LedgerMeta where
  schemaVersion : Option String
  deliveryCounters : Option DeliveryCounters
  ingestQualityCounters : Option IngestQualityCounters
  ingestQualityArchive : Option IngestQualityArchive
  deriving DecidableEq

/-- The ledger's four tables. -/
structure DeliveryLedger where
  deliveries : Table String DeliveryRecord
  pendingDeliveries : Table String String
  inflightDeliveries : Table String String
  metadata : LedgerMeta
  deriving DecidableEq

/-- The database file of a ledger that was never opened. -/
def DeliveryLedger.created : DeliveryLedger :=
  ⟨Table.empty, Table.empty, Table.empty, ⟨none, none, none, none⟩⟩

/-- One row of `delivery_counters_from_table`. -/
def countDelivery (counters : DeliveryCounters) (row : String × DeliveryRecord) :
    DeliveryCounters :=
  let counted := incrementDeliveryState counters row.2.state
  { counted with attempts := counted.attempts + row.2.attempts }

def deliveryCountersFromTable (table : Table String DeliveryRecord) : DeliveryCounters :=
  table.entries.foldl countDelivery { DeliveryCounters.zero with total := table.len }

/-- Weight of a row in the counter of one state. -/
def stateWeight (state : DeliveryState) (_ : String) (record : DeliveryRecord) : Nat :=
  if record.state = state then 1 else 0

def attemptsWeight (_ : String) (record : DeliveryRecord) : Nat := record.attempts

theorem countDelivery_ofState (counters : DeliveryCounters) (row : String × DeliveryRecord)
    (state : DeliveryState) :
    (countDelivery counters row).ofState state =
      counters.ofState state + stateWeight state row.1 row.2 := by
  rw [stateWeight, ← increment_ofState]
  cases state <;> rfl

theorem foldl_countDelivery (rows : List (String × DeliveryRecord))
    (start : DeliveryCounters) :
    (rows.foldl countDelivery start).total = start.total ∧
      (rows.foldl countDelivery start).attempts =
        start.attempts + OrdMap.weigh attemptsWeight rows ∧
      ∀ state, (rows.foldl countDelivery start).ofState state =
        start.ofState state + OrdMap.weigh (stateWeight state) rows := by
  induction rows generalizing start with
  | nil => simp [OrdMap.weigh]
  | cons row rest ih =>
      obtain ⟨htotal, hattempts, hstate⟩ := ih (countDelivery start row)
      refine ⟨?_, ?_, ?_⟩
      · simpa [countDelivery] using htotal
      · rw [List.foldl_cons, hattempts]
        simp [countDelivery, OrdMap.weigh, attemptsWeight, Nat.add_assoc]
      · intro state
        rw [List.foldl_cons, hstate, countDelivery_ofState]
        simp [OrdMap.weigh, Nat.add_assoc]

theorem deliveryCountersFromTable_spec (table : Table String DeliveryRecord) :
    (deliveryCountersFromTable table).total = table.len ∧
      (deliveryCountersFromTable table).attempts = table.weigh attemptsWeight ∧
      ∀ state, (deliveryCountersFromTable table).ofState state =
        table.weigh (stateWeight state) := by
  obtain ⟨htotal, hattempts, hstate⟩ :=
    foldl_countDelivery table.entries { DeliveryCounters.zero with total := table.len }
  refine ⟨htotal, ?_, ?_⟩
  · rw [deliveryCountersFromTable, hattempts]
    simp [DeliveryCounters.zero, Table.weigh]
  · intro state
    rw [deliveryCountersFromTable, hstate state]
    cases state <;> simp [DeliveryCounters.zero, DeliveryCounters.ofState, Table.weigh]

end ChipTrace
