/-
The relay's configuration and the checks of `DurableRelay::open`.  Durations
are milliseconds.
-/
import ChipTrace.Lib.Checked

namespace ChipTrace

structure RelayConfig where
  deliveryConcurrency : Nat
  deliveryQueueItems : Nat
  deliveryBatchRecords : Nat
  deliveryBatchBytes : Nat
  maxDeliveryInflightBytes : Nat
  requestTimeout : Nat
  baseRetryDelay : Nat
  maxRetryDelay : Nat
  maxEnvelopeBytes : Nat
  deriving DecidableEq, Repr

namespace RelayConfig

/-- The parameter checks at the start of `DurableRelay::open`. -/
def check (config : RelayConfig) : Except String Unit :=
  if config.deliveryConcurrency = 0 ∨ config.deliveryQueueItems = 0 ∨
      config.deliveryBatchRecords = 0 ∨ config.deliveryBatchBytes = 0 ∨
      config.maxDeliveryInflightBytes = 0 then
    .error "Relay delivery concurrency, queue, and batch sizes must be positive"
  else if config.maxDeliveryInflightBytes < U64.saturatingAdd config.maxEnvelopeBytes 1 then
    .error "Relay delivery body budget must be at least max envelope bytes plus one newline"
  else .ok ()

end RelayConfig

end ChipTrace
