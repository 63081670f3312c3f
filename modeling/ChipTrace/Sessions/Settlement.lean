/-
The settlement of the usage of a Session: the captures that share a correlation key are one
request, and a request is settled once.
-/
import ChipTrace.Lib.Classes
import ChipTrace.Sessions.Usage

namespace ChipTrace.Assemble

def filledText (text : Option String) : Option String :=
  text.filter fun value => !Text.isBlank value

/-- The key of a gateway row: its own prefix marks the id of a client. -/
def gatewayKey (requestId : String) : String :=
  if Text.startsWith requestId "client:" then requestId else s!"upstream:{requestId}"

def usageCorrelationKeys (capture : ParsedCapture) : OrdSet String :=
  OrdSet.ofList
    (((filledText capture.upstreamRequestId).map fun value => s!"upstream:{value}").toList ++
      ((filledText capture.requestId).map fun value => s!"client:{value}").toList ++
      ((filledText capture.responseId).map fun value => s!"response:{value}").toList ++
      ((capture.gatewayEvidence.bind fun evidence =>
        stringField evidence "request_id").map gatewayKey).toList)

section Components

variable (captures : List ParsedCapture)

/-- Every key of every capture is claimed in turn. -/
def claimKeys : Claims String :=
  (captures.map usageCorrelationKeys).zipIdx.foldl
    (fun claims item => item.1.keys.foldl (fun claims key => claims.claim (item.2, key)) claims)
    (Claims.start captures.length)

/-- The positions of the captures of each request, in the order of their first captures. -/
def usageComponents : List (List Nat) :=
  ((claimKeys captures).forest.group Table.empty (List.range captures.length)).entries.map
    Prod.snd

end Components

section

variable (sha256 : Bytes → String)

/-- A capture with what was computed from it. -/
structure Observed where
  capture : ParsedCapture
  observation : ReconciledCaptureUsage
  keys : OrdSet String

def observe (capture : ParsedCapture) : Observed where
  capture := capture
  observation := reconcileCaptureUsageObservation sha256 capture
  keys := usageCorrelationKeys capture

def joinTexts (separator : String) (texts : List String) : String :=
  separator.intercalate texts

def componentId (members : List Observed) : String :=
  let captureIds := members.map fun member => member.capture.captureId
  let correlationKeys := OrdSet.ofList (members.flatMap fun member => member.keys.keys)
  let identity :=
    if correlationKeys.keys.isEmpty then joinTexts "\x00" captureIds
    else joinTexts "\x00" correlationKeys.keys
  s!"usage-{sha256 (Bytes.encode identity.toList)}"

/-- Report the ids of one kind when they differ. -/
def reportIds (componentId kind : String) (ids : List String) (conflicts : OrdSet String) :
    OrdSet String :=
  let distinct := OrdSet.ofList ids
  if 1 < distinct.len then
    let listed := joinTexts "," distinct.keys
    conflicts.add s!"{componentId}:{kind}:{listed}"
  else conflicts

structure Settling where
  component : Usage := {}
  present : UsagePresence := {}
  selectedCaptureIds : JsonMap := []
  conflicts : OrdSet String := Table.empty

/-- The first capture that has the field settles it; another value is a conflict. -/
def settleObservation (componentId : String) (field : UsageField) (settling : Settling)
    (member : Observed) : Settling :=
  if !member.observation.present.get field then settling
  else
    let candidate := member.observation.values.get field
    if settling.present.get field then
      if settling.component.get field != candidate then
        let selectedId :=
          ((settling.selectedCaptureIds.get field.name).bind Json.asStr).getD "unknown"
        let value := settling.component.get field
        let captureId := member.capture.captureId
        { settling with
          conflicts := settling.conflicts.add
            s!"{componentId}:{field.name}:{selectedId}={value}:{captureId}={candidate}" }
      else settling
    else
      { settling with
        component := settling.component.set field candidate
        present := settling.present.set field true
        selectedCaptureIds :=
          settling.selectedCaptureIds.insert field.name (.str member.capture.captureId) }

def settleField (componentId : String) (members : List Observed) (settling : Settling)
    (field : UsageField) : Settling :=
  members.foldl (settleObservation componentId field) settling

def settleFields (componentId : String) (members : List Observed) (settling : Settling) :
    Settling :=
  UsageField.all.foldl (settleField componentId members) settling

/-- The total of a request is at least the sum of its input and output. -/
def raisedTotal (component : Usage) : Usage :=
  { component with
    totalTokens :=
      max component.totalTokens (U64.saturatingAdd component.inputTokens component.outputTokens) }

structure SessionUsage where
  total : Usage := {}
  captureEvidence : List Json := []
  settlementEvidence : List Json := []
  conflicts : OrdSet String := Table.empty

def settleComponent (session : SessionUsage) (members : List Observed) : SessionUsage :=
  let id := componentId sha256 members
  let captureIds := members.map fun member => member.capture.captureId
  let correlationKeys := OrdSet.ofList (members.flatMap fun member => member.keys.keys)
  let reported := reportIds id "multiple_response_ids"
    (members.filterMap fun member => member.capture.responseId)
    (reportIds id "multiple_upstream_request_ids"
      (members.filterMap fun member => member.capture.upstreamRequestId) session.conflicts)
  let settled := settleFields id members { conflicts := reported }
  let component := raisedTotal settled.component
  { total := if settled.present.any then session.total.add component else session.total
    captureEvidence := session.captureEvidence ++ members.map fun member =>
      .obj (member.observation.evidence.insert "settlement_component_id" (.str id))
    settlementEvidence :=
      if settled.present.any then
        session.settlementEvidence ++ [Json.mkObj
          [("policy", .str "exact_request_component_once.v1"),
            ("component_id", .str id),
            ("correlation_keys", .arr (correlationKeys.keys.map .str)),
            ("capture_ids", .arr (captureIds.map .str)),
            ("selected", component.asValue),
            ("selected_capture_ids", .obj settled.selectedCaptureIds),
            ("present_fields", settled.present.fieldsValue)]]
      else session.settlementEvidence
    conflicts := members.foldl
      (fun conflicts member => conflicts.addAll member.observation.conflicts.keys)
      settled.conflicts }

/-- The captures at the positions of a component. -/
def membersAt (captures : List ParsedCapture) (indices : List Nat) : List Observed :=
  indices.filterMap fun index => (captures[index]?).map (observe sha256)

def reconcileSessionUsage (captures : List ParsedCapture) : SessionUsage :=
  (usageComponents captures).foldl
    (fun session indices => settleComponent sha256 session (membersAt sha256 captures indices)) {}

/-- The value of a field on which the members settle. -/
def settledValue (members : List Observed) (field : UsageField) : Nat :=
  ((members.find? fun member => member.observation.present.get field).map fun member =>
    member.observation.values.get field).getD 0

/-- The usage on which the members settle. -/
def settledUsage (members : List Observed) : Usage :=
  raisedTotal (Usage.ofFields (settledValue members))

/-- No two members report different values of a field. -/
def Agree (field : UsageField) (members : List Observed) : Prop :=
  ∀ a ∈ members, ∀ b ∈ members, a.observation.present.get field = true →
    b.observation.present.get field = true →
      a.observation.values.get field = b.observation.values.get field

/-- Nothing about the members is reported as a conflict. -/
structure Harmonious (members : List Observed) : Prop where
  upstream : ∀ id ∈ members.filterMap fun member => member.capture.upstreamRequestId,
    ∀ id' ∈ members.filterMap fun member => member.capture.upstreamRequestId, id = id'
  response : ∀ id ∈ members.filterMap fun member => member.capture.responseId,
    ∀ id' ∈ members.filterMap fun member => member.capture.responseId, id = id'
  agree : ∀ field, Agree field members
  quiet : ∀ member ∈ members, member.observation.conflicts = Table.empty

theorem Harmonious.of_subset {members more : List Observed} (h : Harmonious more)
    (hsubset : ∀ member ∈ members, member ∈ more) : Harmonious members where
  upstream id hid id' hid' := by
    obtain ⟨a, ha, heq⟩ := List.mem_filterMap.mp hid
    obtain ⟨b, hb, heq'⟩ := List.mem_filterMap.mp hid'
    exact h.upstream id (List.mem_filterMap.mpr ⟨a, hsubset a ha, heq⟩) id'
      (List.mem_filterMap.mpr ⟨b, hsubset b hb, heq'⟩)
  response id hid id' hid' := by
    obtain ⟨a, ha, heq⟩ := List.mem_filterMap.mp hid
    obtain ⟨b, hb, heq'⟩ := List.mem_filterMap.mp hid'
    exact h.response id (List.mem_filterMap.mpr ⟨a, hsubset a ha, heq⟩) id'
      (List.mem_filterMap.mpr ⟨b, hsubset b hb, heq'⟩)
  agree field a ha b hb := h.agree field a (hsubset a ha) b (hsubset b hb)
  quiet member hmember := h.quiet member (hsubset member hmember)

section Fields

variable (id : String) {field other : UsageField} (members : List Observed)
  (settling : Settling)

theorem settleObservation_other (hne : other ≠ field) (member : Observed) :
    (settleObservation id field settling member).component.get other =
        settling.component.get other ∧
      (settleObservation id field settling member).present.get other =
        settling.present.get other := by
  simp only [settleObservation]
  split_ifs
  · exact ⟨rfl, rfl⟩
  · exact ⟨rfl, rfl⟩
  · exact ⟨rfl, rfl⟩
  · simp [hne]

/-- Settling one field leaves the others. -/
theorem settleField_other (hne : other ≠ field) :
    (settleField id members settling field).component.get other =
        settling.component.get other ∧
      (settleField id members settling field).present.get other =
        settling.present.get other := by
  induction members generalizing settling with
  | nil => exact ⟨rfl, rfl⟩
  | cons member rest ih =>
      have hhead := settleObservation_other id settling hne member
      have hrest := ih (settleObservation id field settling member)
      exact ⟨hrest.1.trans hhead.1, hrest.2.trans hhead.2⟩

/-- A field that has been settled stays; every other value for it is reported. -/
theorem settleField_present (hpresent : settling.present.get field = true) :
    (settleField id members settling field).component.get field =
        settling.component.get field ∧
      (settleField id members settling field).present.get field = true ∧
      ((settleField id members settling field).conflicts = Table.empty ↔
        settling.conflicts = Table.empty ∧ ∀ member ∈ members,
          member.observation.present.get field = true →
            member.observation.values.get field = settling.component.get field) := by
  induction members generalizing settling with
  | nil => exact ⟨rfl, hpresent, by simp [settleField]⟩
  | cons member rest ih =>
      have hstep : settleField id (member :: rest) settling field =
          settleField id rest (settleObservation id field settling member) field := rfl
      rw [hstep]
      cases hmember : member.observation.present.get field with
      | false =>
          have hsame : settleObservation id field settling member = settling := by
            simp [settleObservation, hmember]
          rw [hsame]
          obtain ⟨hvalue, hstays, hconflicts⟩ := ih settling hpresent
          refine ⟨hvalue, hstays, hconflicts.trans ?_⟩
          simp [hmember]
      | true =>
          by_cases hequal : settling.component.get field = member.observation.values.get field
          · have hsame : settleObservation id field settling member = settling := by
              simp [settleObservation, hmember, hpresent, hequal]
            rw [hsame]
            obtain ⟨hvalue, hstays, hconflicts⟩ := ih settling hpresent
            refine ⟨hvalue, hstays, hconflicts.trans ?_⟩
            simp [hequal]
          · have hchanged : ∃ text, settleObservation id field settling member =
                { settling with conflicts := settling.conflicts.add text } := by
              simp only [settleObservation, hmember, hpresent, Bool.not_true, Bool.false_eq_true,
                if_false, if_true]
              rw [if_pos (by simpa using hequal)]
              exact ⟨_, rfl⟩
            obtain ⟨text, hchanged⟩ := hchanged
            rw [hchanged]
            obtain ⟨hvalue, hstays, hconflicts⟩ :=
              ih { settling with conflicts := settling.conflicts.add text } hpresent
            refine ⟨hvalue, hstays, hconflicts.trans ?_⟩
            constructor
            · exact fun h => absurd h.1 (OrdSet.add_ne_empty _ _)
            · intro h
              exact absurd (h.2 member List.mem_cons_self hmember).symm hequal

/-- The first member that has the field settles it, and any other value is reported. -/
theorem settleField_fresh (hpresent : settling.present.get field = false)
    (hzero : settling.component.get field = 0) :
    (settleField id members settling field).component.get field = settledValue members field ∧
      (settleField id members settling field).present.get field =
        members.any (fun member => member.observation.present.get field) ∧
      ((settleField id members settling field).conflicts = Table.empty ↔
        settling.conflicts = Table.empty ∧ Agree field members) := by
  induction members with
  | nil => exact ⟨hzero, hpresent, by simp [settleField, Agree]⟩
  | cons member rest ih =>
      have hstep : settleField id (member :: rest) settling field =
          settleField id rest (settleObservation id field settling member) field := rfl
      rw [hstep]
      cases hmember : member.observation.present.get field with
      | false =>
          have hsame : settleObservation id field settling member = settling := by
            simp [settleObservation, hmember]
          rw [hsame]
          obtain ⟨hvalue, hstays, hconflicts⟩ := ih
          refine ⟨?_, ?_, hconflicts.trans ?_⟩
          · rw [hvalue, settledValue, settledValue, List.find?_cons, hmember]
          · rw [hstays, List.any_cons, hmember, Bool.false_or]
          · simp [Agree, hmember]
      | true =>
          have hset : settleObservation id field settling member =
              { settling with
                component := settling.component.set field (member.observation.values.get field)
                present := settling.present.set field true
                selectedCaptureIds :=
                  settling.selectedCaptureIds.insert field.name
                    (.str member.capture.captureId) } := by
            simp [settleObservation, hmember, hpresent]
          rw [hset]
          obtain ⟨hvalue, hstays, hconflicts⟩ := settleField_present id rest
            { settling with
                component := settling.component.set field (member.observation.values.get field)
                present := settling.present.set field true
                selectedCaptureIds :=
                  settling.selectedCaptureIds.insert field.name
                    (.str member.capture.captureId) }
            (Eq.trans (UsagePresence.get_set _ field field true) (if_pos rfl))
          refine ⟨?_, ?_, hconflicts.trans (and_congr_right fun _ => ?_)⟩
          · rw [hvalue, settledValue, List.find?_cons, hmember]
            simp
          · rw [hstays, List.any_cons, hmember, Bool.true_or]
          · simp only [Usage.get_set, if_true]
            constructor
            · intro h a ha b hb hpa hpb
              have hfirst : ∀ c ∈ member :: rest, c.observation.present.get field = true →
                  c.observation.values.get field = member.observation.values.get field := by
                intro c hc hpc
                cases List.mem_cons.mp hc with
                | inl heq => rw [heq]
                | inr hrest => exact h c hrest hpc
              exact (hfirst a ha hpa).trans (hfirst b hb hpb).symm
            · intro h c hc hpc
              exact h c (List.mem_cons_of_mem _ hc) member List.mem_cons_self hpc hmember

/-- Each field is settled on its own. -/
theorem settleFields_from {fields : List UsageField} (hnodup : fields.Nodup)
    (hfresh : ∀ field ∈ fields, settling.present.get field = false ∧
      settling.component.get field = 0) :
    (∀ field, (fields.foldl (settleField id members) settling).component.get field =
        if field ∈ fields then settledValue members field
        else settling.component.get field) ∧
      (∀ field, (fields.foldl (settleField id members) settling).present.get field =
        if field ∈ fields then members.any (fun member => member.observation.present.get field)
        else settling.present.get field) ∧
      ((fields.foldl (settleField id members) settling).conflicts = Table.empty ↔
        settling.conflicts = Table.empty ∧ ∀ field ∈ fields, Agree field members) := by
  induction fields generalizing settling with
  | nil => simp
  | cons first rest ih =>
      obtain ⟨hnew, hrest⟩ := List.nodup_cons.mp hnodup
      obtain ⟨hvalue, hpresent, hconflicts⟩ :=
        settleField_fresh id members settling (hfresh first List.mem_cons_self).1
          (hfresh first List.mem_cons_self).2
      have hothers : ∀ field, field ≠ first →
          (settleField id members settling first).component.get field =
              settling.component.get field ∧
            (settleField id members settling first).present.get field =
              settling.present.get field :=
        fun field hne => settleField_other id members settling hne
      have hnext := ih (settleField id members settling first) hrest (by
        intro field hfield
        have hne : field ≠ first := fun heq => hnew (heq ▸ hfield)
        rw [(hothers field hne).1, (hothers field hne).2]
        exact hfresh field (List.mem_cons_of_mem _ hfield))
      rw [List.foldl_cons]
      refine ⟨?_, ?_, ?_⟩
      · intro field
        rw [hnext.1 field]
        by_cases heq : field = first
        · rw [heq, if_neg hnew, if_pos List.mem_cons_self, hvalue]
        · rw [(hothers field heq).1]
          simp [heq]
      · intro field
        rw [hnext.2.1 field]
        by_cases heq : field = first
        · rw [heq, if_neg hnew, if_pos List.mem_cons_self, hpresent]
        · rw [(hothers field heq).2]
          simp [heq]
      · rw [hnext.2.2, hconflicts, List.forall_mem_cons, and_assoc]

end Fields

variable {sha256 : Bytes → String}

theorem reportIds_eq_empty {id kind : String} {ids : List String} {conflicts : OrdSet String} :
    reportIds id kind ids conflicts = Table.empty ↔
      conflicts = Table.empty ∧ ∀ a ∈ ids, ∀ b ∈ ids, a = b := by
  rw [← OrdSet.len_ofList_le_one_iff, reportIds]
  split_ifs with hmany
  · constructor
    · exact fun h => absurd h (OrdSet.add_ne_empty _ _)
    · exact fun h => absurd h.2 (not_le.mpr hmany)
  · exact (and_iff_left (not_lt.mp hmany)).symm

theorem foldl_addAll_eq_empty {members : List Observed} {conflicts : OrdSet String} :
    members.foldl (fun conflicts member => conflicts.addAll member.observation.conflicts.keys)
        conflicts = Table.empty ↔
      conflicts = Table.empty ∧
        ∀ member ∈ members, member.observation.conflicts = Table.empty := by
  induction members generalizing conflicts with
  | nil => simp
  | cons member rest ih =>
      have hkeys : member.observation.conflicts.keys = [] ↔
          member.observation.conflicts = Table.empty := by
        rw [OrdSet.eq_empty_iff, List.eq_nil_iff_forall_not_mem]
      rw [List.foldl_cons, ih, OrdSet.addAll_eq_empty_iff, hkeys, List.forall_mem_cons, and_assoc]

/-- The members settle on nothing when none has any field. -/
theorem settledUsage_of_absent {members : List Observed}
    (habsent : ∀ field, members.any (fun member => member.observation.present.get field) = false)
    (field : UsageField) : (settledUsage members).get field = 0 := by
  have hzero : settledValue members = fun _ => 0 := by
    funext field
    have hnone : members.find? (fun member => member.observation.present.get field) = none := by
      rw [List.find?_eq_none]
      intro member hmember
      have hall := List.any_eq_false.mp (habsent field) member hmember
      simpa using hall
    rw [settledValue, hnone]
    rfl
  rw [settledUsage, hzero]
  cases field <;> rfl

section Component

variable (id : String) (members : List Observed) (conflicts : OrdSet String)

theorem component_settleFields :
    (settleFields id members { conflicts := conflicts }).component =
      Usage.ofFields (settledValue members) := by
  apply Usage.ext_get
  intro field
  rw [settleFields, (settleFields_from id members _ UsageField.nodup_all
    (fun field _ => ⟨by cases field <;> rfl, by cases field <;> rfl⟩)).1 field,
    if_pos (UsageField.mem_all field), Usage.get_ofFields]

theorem present_settleFields (field : UsageField) :
    (settleFields id members { conflicts := conflicts }).present.get field =
      members.any fun member => member.observation.present.get field := by
  rw [settleFields, (settleFields_from id members _ UsageField.nodup_all
    (fun field _ => ⟨by cases field <;> rfl, by cases field <;> rfl⟩)).2.1 field,
    if_pos (UsageField.mem_all field)]

theorem conflicts_settleFields :
    (settleFields id members { conflicts := conflicts }).conflicts = Table.empty ↔
      conflicts = Table.empty ∧ ∀ field, Agree field members := by
  rw [settleFields, (settleFields_from id members _ UsageField.nodup_all
    (fun field _ => ⟨by cases field <;> rfl, by cases field <;> rfl⟩)).2.2]
  simp [UsageField.mem_all]

end Component

/-- A component adds the usage on which its members settle. -/
theorem total_settleComponent (session : SessionUsage) (members : List Observed)
    (field : UsageField) (hfits : session.total.get field < U64.limit) :
    (settleComponent sha256 session members).total.get field =
      U64.saturatingAdd (session.total.get field) ((settledUsage members).get field) := by
  rw [settleComponent]
  simp only [component_settleFields]
  split_ifs with hany
  · rw [Usage.get_add, settledUsage]
  · have habsent : ∀ field,
        members.any (fun member => member.observation.present.get field) = false := by
      intro field
      rw [UsagePresence.any, Bool.not_eq_true, List.any_eq_false] at hany
      have hfield := hany field (UsageField.mem_all field)
      rw [present_settleFields] at hfield
      simpa using hfield
    rw [settledUsage_of_absent habsent, U64.saturatingAdd_eq (by omega), Nat.add_zero]

/-- A component reports nothing exactly when its members are in harmony. -/
theorem conflicts_settleComponent (session : SessionUsage) (members : List Observed) :
    (settleComponent sha256 session members).conflicts = Table.empty ↔
      session.conflicts = Table.empty ∧ Harmonious members := by
  rw [settleComponent]
  simp only [foldl_addAll_eq_empty, conflicts_settleFields, reportIds_eq_empty]
  constructor
  · rintro ⟨⟨⟨⟨hsession, hupstream⟩, hresponse⟩, hagree⟩, hquiet⟩
    exact ⟨hsession, hupstream, hresponse, hagree, hquiet⟩
  · rintro ⟨hsession, h⟩
    exact ⟨⟨⟨⟨hsession, h.upstream⟩, h.response⟩, h.agree⟩, h.quiet⟩

theorem total_foldl_settleComponent (components : List (List Observed)) (session : SessionUsage)
    (field : UsageField) (hfits : session.total.get field < U64.limit) :
    (components.foldl (settleComponent sha256) session).total.get field =
      (components.map fun members => (settledUsage members).get field).foldl U64.saturatingAdd
        (session.total.get field) := by
  induction components generalizing session with
  | nil => rfl
  | cons members rest ih =>
      have hstep : (settleComponent sha256 session members).total.get field = _ :=
        total_settleComponent session members field hfits
      rw [List.foldl_cons, ih, hstep]
      · rfl
      · rw [hstep]
        exact U64.saturatingAdd_lt _ _

theorem conflicts_foldl_settleComponent (components : List (List Observed))
    (session : SessionUsage) :
    (components.foldl (settleComponent sha256) session).conflicts = Table.empty ↔
      session.conflicts = Table.empty ∧ ∀ members ∈ components, Harmonious members := by
  induction components generalizing session with
  | nil => simp
  | cons members rest ih =>
      rw [List.foldl_cons, ih, conflicts_settleComponent, List.forall_mem_cons, and_assoc]

theorem reconcileSessionUsage_eq (captures : List ParsedCapture) :
    reconcileSessionUsage sha256 captures =
      ((usageComponents captures).map (membersAt sha256 captures)).foldl
        (settleComponent sha256) {} := by
  rw [reconcileSessionUsage, List.foldl_map]

end

end ChipTrace.Assemble
