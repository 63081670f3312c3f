/-
The packing of the staged requests of a day into batches: a batch is grown by estimated size, and
shrunk until the file that it is written to is small enough.
-/
import Mathlib.Data.List.Induction
import Mathlib.Data.String.Basic
import ChipTrace.Lib.Checked
import ChipTrace.Lib.Decimal
import ChipTrace.Lib.OrdMap

namespace ChipTrace.Maas

structure StagedRequest where
  requestId : String
  directory : String
  bytes : Nat
  deriving DecidableEq

structure MaasBatchInfo where
  date : String
  file : String
  sha256 : String
  bytes : Nat
  requests : Nat
  deriving DecidableEq

/-- What the files of a day hold. -/
abbrev Outputs := Table String (List StagedRequest)

section Names

/-- A batch number, padded to five digits. -/
def numeral (batchNumber : Nat) : List Char :=
  if batchNumber < 10 ^ 5 then Decimal.padded 5 batchNumber else Decimal.digits batchNumber

def fileName (batchNumber : Nat) : String :=
  String.ofList ("batch_".toList ++ numeral batchNumber ++ ".tar.gz".toList)

theorem readDigits_numeral (batchNumber : Nat) :
    Decimal.readDigits 0 (numeral batchNumber) = some batchNumber := by
  rw [numeral]
  split_ifs with hfits
  · rw [Decimal.readDigits_padded hfits]
    simp
  · exact Decimal.readDigits_digits batchNumber

theorem fileName_injective {m n : Nat} (h : fileName m = fileName n) : m = n := by
  have hchars := String.ofList_injective h
  rw [List.append_assoc, List.append_assoc] at hchars
  have hnumeral := List.append_cancel_right (List.append_cancel_left hchars)
  have hread := readDigits_numeral m
  rw [hnumeral, readDigits_numeral n] at hread
  exact (Option.some.inj hread).symm

end Names

section Packing

variable (compressedBytes : List StagedRequest → Nat) (sha256 : List StagedRequest → String)
variable (date : String) (requests : List StagedRequest) (maxBatchBytes : Nat)

def roughLimit : Nat := U64.saturatingMul maxBatchBytes 9 / 10

/-- How many requests are taken by their estimated sizes; the first always is. -/
def roughCount (limit : Nat) : Bool → Nat → List StagedRequest → Nat
  | _, _, [] => 0
  | atStart, roughBytes, request :: rest =>
      let grown := U64.saturatingAdd roughBytes (U64.saturatingAdd request.bytes 2048)
      if atStart || grown ≤ limit then roughCount limit false grown rest + 1 else 0

/-- The batch is written with ever fewer requests until it fits; a request on its own has to. -/
def writeFitting (file : String) (rest : List StagedRequest) :
    Nat → Outputs → Except String (Nat × Outputs)
  | 0, outputs =>
      let slice := rest.take 1
      let bytes := compressedBytes slice
      if bytes ≤ maxBatchBytes then .ok (1, outputs.insert file slice)
      else
        let requestId := ((rest.head?).map StagedRequest.requestId).getD ""
        .error s!"single MaaS request {requestId} compresses to {bytes} bytes, above the {maxBatchBytes} byte limit"
  | more + 1, outputs =>
      let slice := rest.take (more + 2)
      if compressedBytes slice ≤ maxBatchBytes then .ok (more + 2, outputs.insert file slice)
      else writeFitting file rest more (outputs.insert file slice)

structure Packing where
  start : Nat
  batchNumber : Nat
  batches : List MaasBatchInfo
  outputs : Outputs

def batchInfo (batchNumber : Nat) (slice : List StagedRequest) : MaasBatchInfo where
  date := date
  file := fileName batchNumber
  sha256 := sha256 slice
  bytes := compressedBytes slice
  requests := slice.length

/-- One batch. -/
def packBatch (state : Packing) : Except String Packing := do
  let rest := requests.drop state.start
  let count := roughCount (roughLimit maxBatchBytes) true 0 rest
  let count := if count = 0 then 1 else count
  let (count, outputs) ← writeFitting compressedBytes maxBatchBytes
    (fileName state.batchNumber) rest (count - 1) state.outputs
  return {
    start := state.start + count
    batchNumber := U64.saturatingAdd state.batchNumber 1
    batches := state.batches ++
      [batchInfo compressedBytes sha256 date state.batchNumber (rest.take count)]
    outputs := outputs }

/-- Batches until no request is left; nothing if the rounds do not suffice. -/
def packBatches : Nat → Packing → Option (Except String Packing)
  | fuel, state =>
      if state.start < requests.length then
        match fuel with
        | 0 => none
        | fuel + 1 =>
            match packBatch compressedBytes sha256 date requests maxBatchBytes state with
            | .error message => some (.error message)
            | .ok next => packBatches fuel next
      else some (.ok state)

def packDate (firstBatchNumber : UInt64) : Option (Except String (List MaasBatchInfo × Outputs)) :=
  (packBatches compressedBytes sha256 date requests maxBatchBytes requests.length
    ⟨0, firstBatchNumber.toNat, [], Table.empty⟩).map fun result =>
      result.map fun state => (state.batches, state.outputs)

end Packing

section Batch

variable {compressedBytes : List StagedRequest → Nat} {sha256 : List StagedRequest → String}
variable {date : String} {requests : List StagedRequest} {maxBatchBytes : Nat}

theorem roughCount_le (limit : Nat) (atStart : Bool) (roughBytes : Nat)
    (rest : List StagedRequest) : roughCount limit atStart roughBytes rest ≤ rest.length := by
  induction rest generalizing atStart roughBytes with
  | nil => exact Nat.le_refl 0
  | cons request rest ih =>
      simp only [roughCount]
      split_ifs
      · exact Nat.succ_le_succ (ih false _)
      · exact Nat.zero_le _

/-- Writing a file again replaces what it held. -/
theorem insert_insert (outputs : Outputs) (file : String) (first second : List StagedRequest) :
    (outputs.insert file first).insert file second = outputs.insert file second := by
  apply Table.ext_get?
  intro name
  simp only [Table.get?_insert]
  split_ifs <;> rfl

/-- The request that is above the limit on its own. -/
def TooLarge (compressedBytes : List StagedRequest → Nat) (maxBatchBytes : Nat)
    (request : StagedRequest) (message : String) : Prop :=
  maxBatchBytes < compressedBytes [request] ∧
    message =
      let requestId := request.requestId
      let bytes := compressedBytes [request]
      s!"single MaaS request {requestId} compresses to {bytes} bytes, above the {maxBatchBytes} byte limit"

/-- The file that is kept holds the requests that were finally chosen, and fits. -/
theorem writeFitting_ok {file : String} {rest : List StagedRequest} {more count : Nat}
    {outputs written : Outputs}
    (h : writeFitting compressedBytes maxBatchBytes file rest more outputs = .ok (count, written)) :
    0 < count ∧ count ≤ more + 1 ∧ compressedBytes (rest.take count) ≤ maxBatchBytes ∧
      written = outputs.insert file (rest.take count) := by
  induction more generalizing outputs with
  | zero =>
      simp only [writeFitting] at h
      split_ifs at h with hfits
      obtain ⟨rfl, rfl⟩ := Prod.mk.inj (Except.ok.inj h)
      exact ⟨Nat.one_pos, Nat.le_refl 1, hfits, rfl⟩
  | succ more ih =>
      simp only [writeFitting] at h
      split_ifs at h with hfits
      · obtain ⟨rfl, rfl⟩ := Prod.mk.inj (Except.ok.inj h)
        exact ⟨Nat.succ_pos _, Nat.le_refl _, hfits, rfl⟩
      · obtain ⟨hpos, hle, hbytes, hwritten⟩ := ih h
        rw [insert_insert] at hwritten
        exact ⟨hpos, Nat.le_succ_of_le hle, hbytes, hwritten⟩

theorem writeFitting_error {file : String} {request : StagedRequest} {rest : List StagedRequest}
    {more : Nat} {outputs : Outputs} {message : String}
    (h : writeFitting compressedBytes maxBatchBytes file (request :: rest) more outputs =
      .error message) :
    TooLarge compressedBytes maxBatchBytes request message := by
  induction more generalizing outputs with
  | zero =>
      simp only [writeFitting] at h
      split at h
      · cases h
      · rename_i hfits
        exact ⟨Nat.lt_of_not_le hfits, (Except.error.inj h).symm⟩
  | succ more ih =>
      simp only [writeFitting] at h
      split at h
      · cases h
      · exact ih h

/-- What one batch does: it takes at least one of the requests that are left. -/
theorem packBatch_ok {state next : Packing} (hstart : state.start < requests.length)
    (h : packBatch compressedBytes sha256 date requests maxBatchBytes state = .ok next) :
    ∃ count, 0 < count ∧ state.start + count ≤ requests.length ∧
      compressedBytes ((requests.drop state.start).take count) ≤ maxBatchBytes ∧
      next =
        { start := state.start + count
          batchNumber := U64.saturatingAdd state.batchNumber 1
          batches := state.batches ++ [batchInfo compressedBytes sha256 date state.batchNumber
            ((requests.drop state.start).take count)]
          outputs := state.outputs.insert (fileName state.batchNumber)
            ((requests.drop state.start).take count) } := by
  simp only [packBatch] at h
  obtain ⟨⟨count, outputs⟩, hwrite, h⟩ := Except.bind_eq_ok_iff.mp h
  obtain ⟨hpos, hle, hbytes, rfl⟩ := writeFitting_ok hwrite
  have hrough := roughCount_le (roughLimit maxBatchBytes) true 0 (requests.drop state.start)
  rw [List.length_drop] at hrough
  refine ⟨count, hpos, ?_, hbytes, (Except.pure_eq_ok_iff.mp h).symm⟩
  split_ifs at hle <;> omega

theorem packBatch_error {state : Packing} {message : String}
    (hstart : state.start < requests.length)
    (h : packBatch compressedBytes sha256 date requests maxBatchBytes state = .error message) :
    ∃ request ∈ requests, TooLarge compressedBytes maxBatchBytes request message := by
  simp only [packBatch] at h
  rw [List.drop_eq_getElem_cons hstart] at h
  refine ⟨requests[state.start], List.getElem_mem hstart, ?_⟩
  cases hwrite : writeFitting compressedBytes maxBatchBytes (fileName state.batchNumber)
      (requests[state.start] :: requests.drop (state.start + 1))
      ((if roughCount (roughLimit maxBatchBytes) true 0
        (requests[state.start] :: requests.drop (state.start + 1)) = 0 then 1
        else roughCount (roughLimit maxBatchBytes) true 0
          (requests[state.start] :: requests.drop (state.start + 1))) - 1) state.outputs with
  | error reason =>
      rw [hwrite] at h
      obtain rfl := Except.error.inj h
      exact writeFitting_error hwrite
  | ok written =>
      rw [hwrite] at h
      cases h

end Batch

section Day

variable (compressedBytes : List StagedRequest → Nat) (sha256 : List StagedRequest → String)
variable (date : String)

/-- The number of a batch: numbers follow each other up to the greatest one there is. -/
def numberAt (first index : Nat) : Nat := min (first + index) (U64.limit - 1)

theorem numberAt_succ (first index : Nat) :
    U64.saturatingAdd (numberAt first index) 1 = numberAt first (index + 1) := by
  rw [U64.saturatingAdd, numberAt, numberAt]
  omega

def infosOf (first : Nat) (slices : List (List StagedRequest)) : List MaasBatchInfo :=
  slices.zipIdx.map fun item =>
    batchInfo compressedBytes sha256 date (numberAt first item.2) item.1

/-- The files of batches that are written in their order. -/
def outputsOf (first : Nat) (slices : List (List StagedRequest)) : Outputs :=
  Table.insertAll Table.empty (slices.zipIdx.map fun item =>
    (fileName (numberAt first item.2), item.1))

theorem infosOf_concat (first : Nat) (slices : List (List StagedRequest))
    (slice : List StagedRequest) :
    infosOf compressedBytes sha256 date first (slices ++ [slice]) =
      infosOf compressedBytes sha256 date first slices ++
        [batchInfo compressedBytes sha256 date (numberAt first slices.length) slice] := by
  rw [infosOf, List.zipIdx_append, List.map_append]
  simp [infosOf]

theorem outputsOf_concat (first : Nat) (slices : List (List StagedRequest))
    (slice : List StagedRequest) :
    outputsOf first (slices ++ [slice]) =
      (outputsOf first slices).insert (fileName (numberAt first slices.length)) slice := by
  rw [outputsOf, List.zipIdx_append, List.map_append, Table.insertAll, List.foldl_append]
  simp [outputsOf, Table.insertAll]

variable {compressedBytes sha256 date} {requests : List StagedRequest} {maxBatchBytes first : Nat}

/-- The batches so far: consecutive slices of the requests, each of at least one request and
small enough. -/
structure Packed (compressedBytes : List StagedRequest → Nat) (sha256 : List StagedRequest → String)
    (date : String) (requests : List StagedRequest) (maxBatchBytes first : Nat)
    (slices : List (List StagedRequest)) (state : Packing) : Prop where
  covers : slices.flatten = requests.take state.start
  within : state.start ≤ requests.length
  fits : ∀ slice ∈ slices, slice ≠ [] ∧ compressedBytes slice ≤ maxBatchBytes
  number : state.batchNumber = numberAt first slices.length
  batches : state.batches = infosOf compressedBytes sha256 date first slices
  outputs : state.outputs = outputsOf first slices

theorem Packed.packBatch {slices : List (List StagedRequest)} {state next : Packing}
    (h : Packed compressedBytes sha256 date requests maxBatchBytes first slices state)
    (hstart : state.start < requests.length)
    (hnext : packBatch compressedBytes sha256 date requests maxBatchBytes state = .ok next) :
    state.start < next.start ∧ ∃ slice,
      Packed compressedBytes sha256 date requests maxBatchBytes first (slices ++ [slice]) next := by
  obtain ⟨count, hpos, hwithin, hbytes, rfl⟩ := packBatch_ok hstart hnext
  refine ⟨Nat.lt_add_of_pos_right hpos, (requests.drop state.start).take count, ?_⟩
  refine ⟨?_, hwithin, ?_, ?_, ?_, ?_⟩
  · rw [List.flatten_append, List.flatten_singleton, h.covers, List.take_add]
  · intro slice hslice
    rcases List.mem_append.mp hslice with hold | hnew
    · exact h.fits slice hold
    · rw [List.mem_singleton.mp hnew]
      refine ⟨?_, hbytes⟩
      rw [← List.length_pos_iff, List.length_take, List.length_drop]
      omega
  · simp only [h.number, numberAt_succ, List.length_append, List.length_singleton]
  · simp only [h.batches, h.number, infosOf_concat]
  · simp only [h.outputs, h.number, outputsOf_concat]

theorem packBatches_done (fuel : Nat) {state : Packing} (hend : ¬ state.start < requests.length) :
    packBatches compressedBytes sha256 date requests maxBatchBytes fuel state =
      some (.ok state) := by
  cases fuel with
  | zero => rw [packBatches, if_neg hend]
  | succ fuel => rw [packBatches, if_neg hend]

/-- Rounds for all requests that are left suffice; they fail at a request that is too large on its
own, or end with all requests packed. -/
theorem packBatches_spec (fuel : Nat) {slices : List (List StagedRequest)} {state : Packing}
    (h : Packed compressedBytes sha256 date requests maxBatchBytes first slices state)
    (hfuel : requests.length ≤ fuel + state.start) :
    (∃ request ∈ requests, ∃ message, TooLarge compressedBytes maxBatchBytes request message ∧
        packBatches compressedBytes sha256 date requests maxBatchBytes fuel state =
          some (.error message)) ∨
      ∃ all final, Packed compressedBytes sha256 date requests maxBatchBytes first all final ∧
        all.flatten = requests ∧
        packBatches compressedBytes sha256 date requests maxBatchBytes fuel state =
          some (.ok final) := by
  have hdone : ¬ state.start < requests.length → ∃ all final,
      Packed compressedBytes sha256 date requests maxBatchBytes first all final ∧
        all.flatten = requests ∧
        packBatches compressedBytes sha256 date requests maxBatchBytes fuel state =
          some (.ok final) := by
    intro hend
    refine ⟨slices, state, h, ?_, ?_⟩
    · rw [h.covers, List.take_of_length_le (Nat.le_of_not_lt hend)]
    · exact packBatches_done fuel hend
  induction fuel generalizing slices state with
  | zero =>
      apply Or.inr
      apply hdone
      omega
  | succ fuel ih =>
      by_cases hstart : state.start < requests.length
      · rw [packBatches, if_pos hstart]
        cases hround : ChipTrace.Maas.packBatch compressedBytes sha256 date requests maxBatchBytes
            state with
        | error message =>
            obtain ⟨request, hrequest, hlarge⟩ := packBatch_error hstart hround
            exact Or.inl ⟨request, hrequest, message, hlarge, rfl⟩
        | ok next =>
            obtain ⟨hmore, slice, hnext⟩ := h.packBatch hstart hround
            apply ih hnext (by omega)
            intro hend
            refine ⟨_, next, hnext, ?_, ?_⟩
            · rw [hnext.covers, List.take_of_length_le (Nat.le_of_not_lt hend)]
            · exact packBatches_done fuel hend
      · exact Or.inr (hdone hstart)

/-- A file holds the slice of the last batch under its number. -/
theorem get?_outputsOf (first : Nat) {slices : List (List StagedRequest)} {index : Nat}
    {slice : List StagedRequest} (hslice : slices[index]? = some slice)
    (hlast : first + index < U64.limit - 1 ∨ index + 1 = slices.length) :
    (outputsOf first slices).get? (fileName (numberAt first index)) = some slice := by
  induction slices using List.reverseRecOn with
  | nil => cases hslice
  | append_singleton slices last ih =>
      rw [outputsOf_concat]
      rw [List.length_append, List.length_singleton] at hlast
      by_cases hindex : index < slices.length
      · rw [List.getElem?_append_left hindex] at hslice
        have hbelow : first + index < U64.limit - 1 := by omega
        rw [Table.get?_insert_of_ne]
        · exact ih hslice (Or.inl hbelow)
        · intro hname
          have hnumber := fileName_injective hname
          rw [numberAt, numberAt] at hnumber
          omega
      · have hbound := (List.getElem?_eq_some_iff.mp hslice).choose
        rw [List.length_append, List.length_singleton] at hbound
        obtain rfl : index = slices.length := by omega
        rw [List.getElem?_append_right (Nat.le_refl _), Nat.sub_self] at hslice
        rw [Table.get?_insert_self]
        exact hslice

theorem getElem?_infosOf {slices : List (List StagedRequest)} {index : Nat} :
    (infosOf compressedBytes sha256 date first slices)[index]? = slices[index]?.map
      (batchInfo compressedBytes sha256 date (numberAt first index)) := by
  rw [infosOf, List.getElem?_map, List.getElem?_zipIdx, Option.map_map, Nat.zero_add]
  rfl

theorem sum_requests_infosOf (slices : List (List StagedRequest)) :
    ((infosOf compressedBytes sha256 date first slices).map MaasBatchInfo.requests).sum =
      slices.flatten.length := by
  rw [List.length_flatten, infosOf, List.map_map]
  have hlengths : slices.zipIdx.map (MaasBatchInfo.requests ∘ fun item =>
      batchInfo compressedBytes sha256 date (numberAt first item.2) item.1) =
        (slices.zipIdx.map Prod.fst).map List.length := by
    rw [List.map_map]
    rfl
  rw [hlengths, List.zipIdx_map_fst]

end Day

end ChipTrace.Maas
