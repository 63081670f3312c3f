/-
Rules for the effects of a capture store: an effect takes place, or it fails or
crashes because the environment says so, and the environment only loses outcomes.
-/
import ChipTrace.Store.Recovery

namespace ChipTrace.CaptureStore

/-- The environment has an effect that ends like this. -/
def Allows (environment : Environment) : Stop → Prop
  | .failed _ => ∃ kept, Outcome.fails kept ∈ environment.outcomes
  | .crashed => ∃ kept, Outcome.crashes kept ∈ environment.outcomes

/-- Nothing ends worse in one environment than in another. -/
def Within (environment other : Environment) : Prop :=
  environment.outcomes ⊆ other.outcomes

section Rules

variable {world : World} {config : StoreConfig} {stopped : Stop → World → Prop}

theorem wp_nextOutcome {after : Outcome → World → Prop}
    (hafter : ∀ outcome environment,
      outcome = .done ∨ outcome ∈ world.environment.outcomes →
      Within environment world.environment → after outcome { world with environment }) :
    Eff.Wp nextOutcome after stopped world := by
  obtain ⟨disk, active, next, outcomes, clock, aged⟩ := world
  cases outcomes with
  | nil => exact hafter .done _ (Or.inl rfl) (List.Subset.refl _)
  | cons outcome rest =>
      exact hafter outcome ⟨rest, clock, aged⟩ (Or.inr List.mem_cons_self)
        (List.subset_cons_self _ _)

theorem wp_fail {α : Type} {message : String} {after : α → World → Prop}
    (hstop : stopped (.failed message) world) :
    Eff.Wp (fail message : StoreM α) after stopped world := hstop

theorem wp_effect {change : Disk → Disk} {after : Unit → World → Prop}
    (hstop : ∀ stop environment, Allows world.environment stop →
      Within environment world.environment → stopped stop { world with environment })
    (hafter : ∀ environment, Within environment world.environment →
      after ⟨⟩ { world with disk := change world.disk, environment }) :
    Eff.Wp (effect change) after stopped world := by
  rw [effect, Eff.wp_bind]
  apply wp_nextOutcome
  intro outcome environment houtcome hwithin
  cases outcome with
  | done => exact hafter environment hwithin
  | fails kept =>
      have hmem := houtcome.resolve_left fun h => by cases h
      exact hstop (.failed _) environment ⟨kept, hmem⟩ hwithin
  | crashes kept =>
      have hmem := houtcome.resolve_left fun h => by cases h
      exact hstop .crashed environment ⟨kept, hmem⟩ hwithin

theorem wp_sync {after : Unit → World → Prop}
    (hstop : ∀ stop environment, Allows world.environment stop →
      Within environment world.environment → stopped stop { world with environment })
    (hafter : ∀ environment, Within environment world.environment →
      after ⟨⟩ { world with environment }) :
    Eff.Wp (sync config) after stopped world := by
  rw [sync, Eff.wp_ite]
  constructor
  · intro _
    exact wp_effect hstop hafter
  · intro _
    exact hafter world.environment (List.Subset.refl _)

theorem wp_utcNow {after : String → World → Prop}
    (hafter : ∀ time environment, Within environment world.environment →
      after time { world with environment }) :
    Eff.Wp utcNow after stopped world := by
  obtain ⟨disk, active, next, outcomes, clock, aged⟩ := world
  cases clock with
  | nil => exact hafter "" _ (List.Subset.refl _)
  | cons time rest => exact hafter time ⟨outcomes, rest, aged⟩ (List.Subset.refl _)

theorem wp_isAged {after : Bool → World → Prop}
    (hafter : ∀ isOld environment, Within environment world.environment →
      after isOld { world with environment }) :
    Eff.Wp isAged after stopped world := by
  obtain ⟨disk, active, next, outcomes, clock, aged⟩ := world
  cases aged with
  | nil => exact hafter false _ (List.Subset.refl _)
  | cons isOld rest => exact hafter isOld ⟨outcomes, clock, rest⟩ (List.Subset.refl _)

theorem wp_readCounters {after : LedgerCounters → World → Prop}
    (hstop : ∀ message, world.disk.counters = none → stopped (.failed message) world)
    (hafter : ∀ counters, world.disk.counters = some counters → after counters world) :
    Eff.Wp readCounters after stopped world := by
  rw [readCounters, Eff.wp_bind, Eff.wp_get]
  cases hcounters : world.disk.counters with
  | none => exact hstop _ hcounters
  | some counters => exact hafter counters hcounters

/-- A write that stops leaves a part of its bytes. -/
theorem wp_writeAll {bytes : Bytes} {after : Unit → World → Prop}
    (hstop : ∀ stop kept environment, Allows world.environment stop →
      Within environment world.environment → stopped stop
        { world with
          disk := appendTo world.active.handle (bytes.take kept) world.disk, environment })
    (hafter : ∀ environment, Within environment world.environment → after ⟨⟩
      { world with disk := appendTo world.active.handle bytes world.disk, environment }) :
    Eff.Wp (writeAll bytes) after stopped world := by
  rw [writeAll, Eff.wp_bind, Eff.wp_get, Eff.wp_bind]
  apply wp_nextOutcome
  intro outcome environment houtcome hwithin
  cases outcome with
  | done => exact hafter environment hwithin
  | fails kept =>
      have hmem := houtcome.resolve_left fun h => by cases h
      exact hstop (.failed _) kept environment ⟨kept, hmem⟩ hwithin
  | crashes kept =>
      have hmem := houtcome.resolve_left fun h => by cases h
      exact hstop .crashed kept environment ⟨kept, hmem⟩ hwithin

/-- The files after a renaming. -/
def renamed (source target : SegmentFile) (content : Bytes) (files : Table SegmentFile Bytes) :
    Table SegmentFile Bytes :=
  if source = target then files else (files.insert target content).remove source

theorem wp_rename {source target : SegmentFile} {after : Unit → World → Prop}
    (hmissing : ∀ message, world.disk.files.get? source = none → stopped (.failed message) world)
    (hstop : ∀ stop environment, Allows world.environment stop →
      Within environment world.environment → stopped stop { world with environment })
    (hafter : ∀ content environment, world.disk.files.get? source = some content →
      Within environment world.environment → after ⟨⟩
        { world with
          disk := { world.disk with files := renamed source target content world.disk.files }
          active := { world.active with
            handle := if world.active.handle = source then target else world.active.handle }
          environment }) :
    Eff.Wp (rename source target) after stopped world := by
  rw [rename, Eff.wp_bind, Eff.wp_get]
  cases hcontent : world.disk.files.get? source with
  | none => exact hmissing _ hcontent
  | some content =>
      dsimp only
      rw [Eff.wp_bind]
      apply wp_effect hstop
      intro environment hwithin
      exact hafter content environment hcontent hwithin

theorem wp_createNew {file : SegmentFile} {after : Unit → World → Prop}
    (hexists : ∀ message, (world.disk.files.get? file).isSome → stopped (.failed message) world)
    (hstop : ∀ stop environment, Allows world.environment stop →
      Within environment world.environment → stopped stop { world with environment })
    (hafter : ∀ environment, world.disk.files.get? file = none →
      Within environment world.environment → after ⟨⟩
        { world with
          disk := { world.disk with files := world.disk.files.insert file [] }, environment }) :
    Eff.Wp (createNew file) after stopped world := by
  rw [createNew, Eff.wp_bind, Eff.wp_get]
  cases hfile : world.disk.files.get? file with
  | some content => exact hexists _ (by rw [hfile]; rfl)
  | none =>
      apply wp_effect hstop
      intro environment hwithin
      exact hafter environment hfile hwithin

end Rules

section NextKey

variable {V : Type} {table : Table Nat V}

/-- The next key is beyond every key. -/
theorem lt_nextKey {key : Nat} (h : (table.get? key).isSome) : key < Disk.nextKey table := by
  obtain ⟨value, hvalue⟩ := Option.isSome_iff_exists.mp h
  have hmem := (table.mem_entries key value).mpr hvalue
  rw [Disk.nextKey]
  cases hlast : table.last? with
  | none =>
      rw [List.getLast?_eq_none_iff.mp hlast] at hmem
      cases hmem
  | some row => exact Nat.lt_succ_of_le (Table.le_of_last? hlast hmem)

theorem get?_nextKey : table.get? (Disk.nextKey table) = none := by
  by_contra h
  exact absurd (lt_nextKey (Option.isSome_iff_ne_none.mpr h)) (Nat.lt_irrefl _)

/-- A table whose keys another table has has no greater next key. -/
theorem nextKey_mono {other : Table Nat V} (h : ∀ key, (table.get? key).isSome →
    (other.get? key).isSome) : Disk.nextKey table ≤ Disk.nextKey other := by
  rw [Disk.nextKey]
  cases hlast : table.last? with
  | none =>
      rw [Disk.nextKey]
      cases other.last? with
      | none => exact Nat.le_refl _
      | some row => exact Nat.succ_le_succ (Nat.zero_le _)
  | some row =>
      have hrow := (table.mem_entries row.1 row.2).mp (Table.mem_of_last? hlast)
      exact Nat.succ_le_of_lt (lt_nextKey (h row.1 (Option.isSome_iff_exists.mpr ⟨_, hrow⟩)))

theorem isSome_get?_insert {key other : Nat} {value : V} (h : (table.get? other).isSome) :
    ((table.insert key value).get? other).isSome := by
  rw [Table.get?_insert]
  split_ifs
  · rfl
  · exact h

theorem nextKey_le_insert (key : Nat) (value : V) :
    Disk.nextKey table ≤ Disk.nextKey (table.insert key value) :=
  nextKey_mono fun _ => isSome_get?_insert

end NextKey

end ChipTrace.CaptureStore
