/-
De-duplication of the snapshots of one trajectory: exact copies are dropped as they come,
and the most complete of the others is kept if it holds the messages of all of them.
-/
import ChipTrace.Lib.Champion
import ChipTrace.Lib.Json.RoundTrip
import ChipTrace.Sessions.Types

namespace ChipTrace.Release

open Assemble (stringField)

section Fingerprints

variable (sha256 : Bytes → String)

def exactContent (session : Json) : Json :=
  Json.mkObj [("system_prompt", (session.get? "system_prompt").getD .null),
    ("tools", (session.get? "tools").getD (.arr [])),
    ("messages", (session.get? "messages").getD (.arr []))]

def exactContentFingerprint (session : Json) : String := sha256 (jsonBytes (exactContent session))

def messagesOf (session : Json) : List Json :=
  ((session.get? "messages").bind Json.asArray).getD []

def messageFingerprints (session : Json) : List String :=
  (messagesOf session).map fun message => sha256 (jsonBytes message)

end Fingerprints

/-- Whether the needle is one of the windows of its length. -/
def isContiguousSubsequence (needle haystack : List String) : Bool :=
  if haystack.length < needle.length then false
  else if needle.isEmpty then true
  else (List.range (haystack.length - needle.length + 1)).any fun start =>
    (haystack.drop start).take needle.length == needle

def terminalStatuses : List String :=
  ["completed", "terminated", "failed", "cancelled", "canceled", "incomplete"]

/-- What makes a snapshot more complete, the most important first. -/
def snapshotRank (session : Json) : Nat ×ₗ Nat ×ₗ Nat ×ₗ Nat :=
  let finalSnapshot := ((session.get? "is_final_snapshot").bind Json.asBool).getD false
  let terminalStatus := (stringField session "status").any fun status =>
    terminalStatuses.contains (Text.asciiLower status)
  let captureCount := ((session.get? "source_capture_count").bind Json.asU64).getD 0
  toLex (finalSnapshot.toNat, toLex (terminalStatus.toNat,
    toLex ((messagesOf session).length, captureCount)))

/-- What is done with the snapshots of one trajectory. -/
inductive Outcome where
  | kept (session : Json) (subsetRemoved : Nat)
  | divergent (record : Json)
  deriving DecidableEq

structure GroupResult where
  exactRemoved : Nat
  outcome : Outcome
  deriving DecidableEq

def GroupResult.kept (result : GroupResult) : Option Json :=
  match result.outcome with
  | .kept session _ => some session
  | .divergent _ => none

section Groups

variable (sha256 : Bytes → String)

/-- The snapshots without exact copies, by their order key, the most complete first. -/
def uniqueSnapshots (candidates : List Json) : List Json :=
  Champion.ranked (exactContentFingerprint sha256) snapshotRank candidates

def deduplicateGroup (dedupKey : String) (candidates : List Json) : Option GroupResult :=
  match uniqueSnapshots sha256 candidates with
  | [] => none
  | full :: others =>
      let fullMessages := messageFingerprints sha256 full
      let subset := others.all fun session =>
        isContiguousSubsequence (messageFingerprints sha256 session) fullMessages
      some
        { exactRemoved := candidates.length - (full :: others).length
          outcome :=
            if subset then .kept full others.length
            else .divergent (Json.mkObj [("trajectory_id", .str dedupKey),
              ("session_id", (full.get? "session_id").getD .null),
              ("reason", .str "divergent_session_snapshots"),
              ("candidate_count", .num (full :: others).length),
              ("content_fingerprints", .arr ((full :: others).map fun session =>
                .str (exactContentFingerprint sha256 session)))]) }

def dedupKey (session : Json) : Except String String :=
  match stringField session "session_id" with
  | none => .error "candidate session_id missing"
  | some sessionId => .ok ((stringField session "trajectory_id").getD sessionId)

/-- The groups of a partition, by key. -/
def deduplicatePartition (sessions : List Json) :
    Except String (List (String × Option GroupResult)) := do
  let keyed ← sessions.mapM fun session => do pure (← dedupKey session, session)
  let keys := (keepFirst id (keyed.map Prod.fst)).insertionSort (· ≤ ·)
  pure (keys.map fun key => (key, deduplicateGroup sha256 key (valuesOf key keyed)))

end Groups

section Contents

variable {sha256 : Bytes → String}

theorem jsonBytes_injective {left right : Json} (hleft : left.WellFormed)
    (hright : right.WellFormed) (h : jsonBytes left = jsonBytes right) : left = right :=
  Json.print_injective hleft hright (Bytes.encode_injective h)

theorem exactContent_wellFormed {session : Json} (hwf : session.WellFormed) :
    (exactContent session).WellFormed := by
  have hfield : ∀ (key : String) (default : Json), default.WellFormed →
      ((session.get? key).getD default).WellFormed := by
    intro key default hdefault
    cases hget : session.get? key with
    | none => exact hdefault
    | some value => exact hwf.get? hget
  apply Json.mkObj_wellFormed
  intro field hmem
  simp only [List.mem_cons, List.not_mem_nil, or_false] at hmem
  rcases hmem with rfl | rfl | rfl
  · exact hfield _ _ trivial
  · exact hfield _ _ trivial
  · exact hfield _ _ trivial

theorem messagesOf_eq (session : Json) :
    messagesOf session = (((exactContent session).get? "messages").bind Json.asArray).getD [] := by
  have hget : (exactContent session).get? "messages" =
      some ((session.get? "messages").getD (.arr [])) := by
    rw [exactContent, Json.get?_mkObj (by simp)]
    rfl
  rw [hget, messagesOf]
  cases session.get? "messages" with
  | none => rfl
  | some messages => rfl

/-- Snapshots with one fingerprint have the same messages. -/
theorem messageFingerprints_eq (hdigest : Function.Injective sha256) {left right : Json}
    (hleft : left.WellFormed) (hright : right.WellFormed)
    (h : exactContentFingerprint sha256 left = exactContentFingerprint sha256 right) :
    messageFingerprints sha256 left = messageFingerprints sha256 right := by
  have hcontent : exactContent left = exactContent right :=
    jsonBytes_injective (exactContent_wellFormed hleft) (exactContent_wellFormed hright)
      (hdigest h)
  rw [messageFingerprints, messageFingerprints, messagesOf_eq, messagesOf_eq, hcontent]

theorem isContiguousSubsequence_self (texts : List String) :
    isContiguousSubsequence texts texts = true := by
  rw [isContiguousSubsequence, if_neg (lt_irrefl _)]
  split_ifs
  · rfl
  · simp

end Contents

section Choice

variable (sha256 : Bytes → String)

/-- The messages of every snapshot are in those of this one. -/
def HoldsAll (group : List Json) (session : Json) : Prop :=
  ∀ other ∈ group, isContiguousSubsequence (messageFingerprints sha256 other)
    (messageFingerprints sha256 session) = true

abbrev orderKey (session : Json) : (Nat ×ₗ Nat ×ₗ Nat ×ₗ Nat) ×ₗ String :=
  Champion.orderKey (exactContentFingerprint sha256) snapshotRank session

/-- Some order of the group makes this the most complete of the snapshots that are left. -/
abbrev CanLead (group : List Json) (session : Json) : Prop :=
  Champion.CanWin (exactContentFingerprint sha256) snapshotRank group session

variable {sha256}

/-- The snapshot that leads decides what is done with the group. -/
theorem kept_deduplicateGroup (hdigest : Function.Injective sha256) {group : List Json}
    (hwf : ∀ session ∈ group, session.WellFormed) (key : String) {full : Json}
    (hfull : Champion.champion (exactContentFingerprint sha256) snapshotRank group = some full) :
    ∃ result, deduplicateGroup sha256 key group = some result ∧
      (HoldsAll sha256 group full → result.kept = some full) ∧
      (¬ HoldsAll sha256 group full → result.kept = none) := by
  obtain ⟨others, hothers⟩ := List.head?_eq_some_iff.mp hfull
  have hmem : ∀ session, session ∈ full :: others ↔
      session ∈ keepFirst (exactContentFingerprint sha256) group := by
    intro session
    rw [← hothers]
    exact Champion.mem_ranked
  have hsubset : (others.all fun session =>
      isContiguousSubsequence (messageFingerprints sha256 session)
        (messageFingerprints sha256 full)) = true ↔ HoldsAll sha256 group full := by
    rw [List.all_eq_true]
    constructor
    · intro hall other hother
      obtain ⟨kept, hkept, hkey⟩ := @Champion.exists_kept _ _ _
        (exactContentFingerprint sha256) group other hother
      have hinGroup : kept ∈ group := Champion.mem_of_kept hkept
      rw [messageFingerprints_eq hdigest (hwf other hother) (hwf kept hinGroup) hkey.symm]
      rw [← hmem] at hkept
      cases hkept with
      | head => exact isContiguousSubsequence_self _
      | tail _ hkept => exact hall kept hkept
    · intro hall session hsession
      exact hall session (Champion.mem_of_kept
        ((hmem session).mp (List.mem_cons_of_mem full hsession)))
  rw [deduplicateGroup, uniqueSnapshots, hothers]
  refine ⟨_, rfl, ?_, ?_⟩
  · intro hholds
    rw [GroupResult.kept]
    simp only [hsubset.mpr hholds, if_true]
  · intro hnot
    have hfalse := Bool.eq_false_iff.mpr (mt hsubset.mp hnot)
    rw [GroupResult.kept]
    simp only [hfalse, Bool.false_eq_true, if_false]

/-- Every order of the group is found divergent, or every order keeps the same snapshot, and
it is the most complete of the group. -/
def Stable (sha256 : Bytes → String) (key : String) (group : List Json) : Prop :=
  (∀ order : List Json, order.Perm group →
      ∃ result, deduplicateGroup sha256 key order = some result ∧ result.kept = none) ∨
    ∃ best ∈ group, (∀ other ∈ group, snapshotRank other ≤ snapshotRank best) ∧
      ∀ order : List Json, order.Perm group →
        ∃ result, deduplicateGroup sha256 key order = some result ∧ result.kept = some best

theorem rank_le_of_orderKey_le {left right : Json}
    (h : orderKey sha256 left ≤ orderKey sha256 right) :
    snapshotRank left ≤ snapshotRank right := by
  rcases Prod.Lex.le_iff.mp h with hlt | ⟨heq, _⟩
  · exact hlt.le
  · exact heq.le

/-- The choice is stable exactly when all snapshots that can lead are divergent, or one that
is not leads in every order. -/
theorem deduplicateGroup_stable_iff (hdigest : Function.Injective sha256) (key : String)
    {group : List Json} (hne : group ≠ []) (hwf : ∀ session ∈ group, session.WellFormed) :
    Stable sha256 key group ↔
      (∀ session, CanLead sha256 group session → ¬ HoldsAll sha256 group session) ∨
        ∃ best ∈ group, HoldsAll sha256 group best ∧
          (∀ other ∈ group, orderKey sha256 other ≤ orderKey sha256 best) ∧
          ∀ other ∈ group, exactContentFingerprint sha256 other =
            exactContentFingerprint sha256 best → other = best := by
  -- What an order does depends on its leader, and on the group alone besides.
  have hresult : ∀ order : List Json, order.Perm group → ∀ full,
      Champion.champion (exactContentFingerprint sha256) snapshotRank order = some full →
      ∃ result, deduplicateGroup sha256 key order = some result ∧
        (HoldsAll sha256 group full → result.kept = some full) ∧
        (¬ HoldsAll sha256 group full → result.kept = none) := by
    intro order hperm full hfull
    have hholds : HoldsAll sha256 order full ↔ HoldsAll sha256 group full := by
      constructor
      · exact fun h other hother => h other (hperm.mem_iff.mpr hother)
      · exact fun h other hother => h other (hperm.mem_iff.mp hother)
    have hkept := kept_deduplicateGroup hdigest
      (fun session hsession => hwf session (hperm.mem_iff.mp hsession)) key hfull
    rwa [hholds] at hkept
  have hleader : ∀ order : List Json, order.Perm group → ∃ full,
      Champion.champion (exactContentFingerprint sha256) snapshotRank order = some full := by
    intro order hperm
    apply Champion.champion_isSome
    rintro rfl
    exact hne hperm.nil_eq.symm
  constructor
  · rintro (hdivergent | ⟨best, hbest, hrank, hkept⟩)
    · left
      intro session hlead hholds
      obtain ⟨order, hperm, hfull⟩ := Champion.canWin_iff.mp hlead
      obtain ⟨result, hrun, hyes, _⟩ := hresult order hperm session hfull
      obtain ⟨other, hother, hnone⟩ := hdivergent order hperm
      rw [hrun, Option.some.injEq] at hother
      rw [← hother, hyes hholds] at hnone
      cases hnone
    · right
      -- The leader of every order is the snapshot that is kept.
      have hlead : ∀ order : List Json, order.Perm group →
          Champion.champion (exactContentFingerprint sha256) snapshotRank order = some best ∧
            HoldsAll sha256 group best := by
        intro order hperm
        obtain ⟨full, hfull⟩ := hleader order hperm
        obtain ⟨result, hrun, hyes, hno⟩ := hresult order hperm full hfull
        obtain ⟨other, hother, hsome⟩ := hkept order hperm
        rw [hrun, Option.some.injEq] at hother
        rw [← hother] at hsome
        by_cases hholds : HoldsAll sha256 group full
        · rw [hyes hholds, Option.some.injEq] at hsome
          rw [← hsome]
          exact ⟨hfull, hholds⟩
        · rw [hno hholds] at hsome
          cases hsome
      -- A snapshot that comes first is among those that are left.
      have hfirst : ∀ other ∈ group, orderKey sha256 other ≤ orderKey sha256 best ∧
          (exactContentFingerprint sha256 other = exactContentFingerprint sha256 best →
            other = best) := by
        intro other hother
        have hperm : (other :: group.erase other).Perm group :=
          (List.perm_cons_erase hother).symm
        obtain ⟨hmem, hmax⟩ := Champion.champion_eq_some_iff.mp (hlead _ hperm).1
        have hkeptFirst := @Champion.mem_keepFirst_cons _ _ _
          (exactContentFingerprint sha256) other (group.erase other)
        exact ⟨hmax other hkeptFirst, Champion.eq_of_key_eq hkeptFirst hmem⟩
      exact ⟨best, hbest, (hlead group (List.Perm.refl group)).2,
        fun other hother => (hfirst other hother).1, fun other hother => (hfirst other hother).2⟩
  · rintro (hdivergent | ⟨best, hbest, hholds, hmax, hunique⟩)
    · left
      intro order hperm
      obtain ⟨full, hfull⟩ := hleader order hperm
      obtain ⟨result, hrun, _, hno⟩ := hresult order hperm full hfull
      exact ⟨result, hrun, hno (hdivergent full (Champion.canWin_iff.mpr ⟨order, hperm, hfull⟩))⟩
    · right
      refine ⟨best, hbest, fun other hother => rank_le_of_orderKey_le (hmax other hother), ?_⟩
      intro order hperm
      obtain ⟨kept, hkept, hkey⟩ := @Champion.exists_kept _ _ _
        (exactContentFingerprint sha256) order best (hperm.mem_iff.mpr hbest)
      have hsame : kept = best :=
        hunique kept (hperm.mem_iff.mp (Champion.mem_of_kept hkept)) hkey
      rw [hsame] at hkept
      have hfull := Champion.champion_eq_some_iff.mpr ⟨hkept, fun other hother =>
        hmax other (hperm.mem_iff.mp (Champion.mem_of_kept hother))⟩
      obtain ⟨result, hrun, hyes, _⟩ := hresult order hperm best hfull
      exact ⟨result, hrun, hyes hholds⟩

end Choice

section Partition

variable {sha256 : Bytes → String}

theorem valuesOf_keyed {sessions : List Json} {keyed : List (String × Json)} (key : String)
    (h : sessions.mapM (fun session => do pure (← dedupKey session, session)) =
      (.ok keyed : Except String (List (String × Json)))) :
    valuesOf key keyed = sessions.filter fun session => dedupKey session = .ok key := by
  induction sessions generalizing keyed with
  | nil =>
      cases h
      rfl
  | cons session rest ih =>
      rw [List.mapM_cons] at h
      cases hkey : dedupKey session with
      | error message =>
          rw [hkey] at h
          cases h
      | ok sessionKey =>
          rw [hkey] at h
          cases hrest : rest.mapM (fun session => do pure (← dedupKey session, session)) with
          | error message =>
              rw [hrest] at h
              cases h
          | ok more =>
              rw [hrest] at h
              cases h
              have hvalues := ih hrest
              rw [valuesOf] at hvalues ⊢
              rw [List.filterMap_cons, List.filter_cons, hkey]
              by_cases hsame : sessionKey = key
              · simp [hsame, hvalues]
              · simp [hsame, hvalues]

/-- The group of a key is made of the sessions with that key, as they come. -/
theorem mem_deduplicatePartition {sessions : List Json}
    {groups : List (String × Option GroupResult)}
    (h : deduplicatePartition sha256 sessions = .ok groups) {key : String}
    {result : Option GroupResult} (hmem : (key, result) ∈ groups) :
    result = deduplicateGroup sha256 key
      (sessions.filter fun session => dedupKey session = .ok key) := by
  rw [deduplicatePartition] at h
  cases hkeyed : sessions.mapM (fun session => do pure (← dedupKey session, session)) with
  | error message =>
      rw [hkeyed] at h
      cases h
  | ok keyed =>
      rw [hkeyed] at h
      cases h
      rw [List.mem_map] at hmem
      obtain ⟨found, _, heq⟩ := hmem
      cases heq
      rw [valuesOf_keyed key hkeyed]

end Partition

namespace Samples

/-- A digest that keeps all bytes. -/
def digest (bytes : Bytes) : String :=
  String.ofList (bytes.map fun byte => Char.ofNat byte.toNat)

theorem digest_injective : Function.Injective digest := by
  intro left right h
  have hchars : left.map (fun byte => Char.ofNat byte.toNat) =
      right.map fun byte => Char.ofNat byte.toNat := by
    exact String.ofList_injective h
  apply List.map_injective_iff.mpr _ hchars
  intro a b hab
  have hround : ∀ byte : UInt8, (Char.ofNat byte.toNat).toNat = byte.toNat := by
    intro byte
    have hlt : byte.toNat < 256 := byte.toNat_lt
    have hvalid : (byte.toNat).isValidChar := Or.inl (by omega)
    rw [Char.ofNat, dif_pos hvalid]
    rfl
  apply UInt8.toNat_inj.mp
  rw [← hround a, ← hround b]
  exact congrArg Char.toNat hab

/-- A snapshot of a Session with these messages. -/
def snapshot (final : Bool) (texts : List String) : Json :=
  .obj [("is_final_snapshot", .bool final),
    ("messages", .arr (texts.map fun text => .obj [("content", .str text)])),
    ("session_id", .str "s-1"), ("trajectory_id", .str "t-1")]

theorem snapshot_wellFormed (final : Bool) (texts : List String) :
    (snapshot final texts).WellFormed := by
  have hitems : (Json.arr (texts.map fun text => .obj [("content", .str text)])).WellFormed := by
    apply Json.wellFormedItems_iff.mpr
    intro item hitem
    obtain ⟨text, _, rfl⟩ := List.mem_map.mp hitem
    exact ⟨List.pairwise_singleton _ _, trivial, trivial⟩
  refine ⟨(List.pairwise_map (f := Prod.fst)).mp ?_, trivial, hitems, trivial, trivial, trivial⟩
  simp only [List.map_cons, List.map_nil]
  decide

theorem snapshots_wellFormed (given : List (Bool × List String)) :
    ∀ session ∈ given.map fun item => snapshot item.1 item.2, session.WellFormed := by
  intro session hsession
  obtain ⟨item, _, rfl⟩ := List.mem_map.mp hsession
  exact snapshot_wellFormed item.1 item.2

end Samples

/-- The final snapshot with more messages is kept in every order. -/
theorem deduplicateGroup_stable_longer :
    Stable Samples.digest "t-1" [Samples.snapshot false ["a"], Samples.snapshot true ["a", "b"]] := by
  refine (deduplicateGroup_stable_iff Samples.digest_injective "t-1" (List.cons_ne_nil _ _)
    (Samples.snapshots_wellFormed [(false, ["a"]), (true, ["a", "b"])])).mpr
      (Or.inr ⟨Samples.snapshot true ["a", "b"], ?_, ?_, ?_, ?_⟩)
  · simp
  · unfold HoldsAll
    decide +kernel
  · decide +kernel
  · decide +kernel

/-- Of two copies that differ in finality the first one is kept. -/
theorem not_deduplicateGroup_stable :
    ¬ ∀ (key : String) (group : List Json), group ≠ [] →
      (∀ session ∈ group, session.WellFormed) → Stable Samples.digest key group := by
  intro h
  have hdraft : (deduplicateGroup Samples.digest "t-1"
      [Samples.snapshot false ["a"], Samples.snapshot true ["a"]]).bind GroupResult.kept =
        some (Samples.snapshot false ["a"]) := by
    decide +kernel
  have hfinal : (deduplicateGroup Samples.digest "t-1"
      [Samples.snapshot true ["a"], Samples.snapshot false ["a"]]).bind GroupResult.kept =
        some (Samples.snapshot true ["a"]) := by
    decide +kernel
  rcases h "t-1" [Samples.snapshot false ["a"], Samples.snapshot true ["a"]]
    (List.cons_ne_nil _ _) (Samples.snapshots_wellFormed [(false, ["a"]), (true, ["a"])]) with
    hdivergent | ⟨best, _, _, hkept⟩
  · obtain ⟨result, hrun, hnone⟩ := hdivergent _ (List.Perm.refl _)
    rw [hrun, Option.bind_some, hnone] at hdraft
    cases hdraft
  · obtain ⟨first, hrun, hbest⟩ := hkept _ (List.Perm.refl _)
    obtain ⟨second, hrun', hbest'⟩ := hkept _ (List.Perm.swap _ _ _)
    rw [hrun, Option.bind_some, hbest] at hdraft
    rw [hrun', Option.bind_some, hbest', hdraft] at hfinal
    revert hfinal
    decide +kernel

end ChipTrace.Release
