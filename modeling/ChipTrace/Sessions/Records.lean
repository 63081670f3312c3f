/-
The groups of captures and the records made of them: which captures a record names, and which
records share a task graph.
-/
import ChipTrace.Sessions.Assembly

namespace ChipTrace.Assemble

section Groups

variable {captures : List Json}

theorem valuesOf_sessionGroupKey (key : String) :
    valuesOf key (captures.map fun capture => (sessionGroupKey capture, capture)) =
      captures.filter fun capture => sessionGroupKey capture == key := by
  induction captures with
  | nil => rfl
  | cons capture rest ih =>
      rw [List.map_cons, valuesOf_cons, ih, List.filter_cons]
      simp only [beq_iff_eq]

theorem mem_groupsOf {group : List Json} :
    group ∈ groupsOf captures ↔
      group ≠ [] ∧ ∃ key, group = captures.filter fun capture => sessionGroupKey capture == key := by
  rw [groupsOf, List.mem_map]
  constructor
  · rintro ⟨⟨key, values⟩, hentry, rfl⟩
    rw [Table.mem_pushAll_empty, valuesOf_sessionGroupKey] at hentry
    exact ⟨hentry.2, key, hentry.1⟩
  · rintro ⟨hne, key, rfl⟩
    refine ⟨(key, _), ?_, rfl⟩
    rw [Table.mem_pushAll_empty, valuesOf_sessionGroupKey]
    exact ⟨rfl, hne⟩

theorem subset_of_mem_groupsOf {group : List Json} (h : group ∈ groupsOf captures) :
    ∀ capture ∈ group, capture ∈ captures := by
  obtain ⟨_, key, rfl⟩ := mem_groupsOf.mp h
  exact fun capture hcapture => List.mem_of_mem_filter hcapture

/-- Every capture is in a group. -/
theorem exists_group {capture : Json} (h : capture ∈ captures) :
    ∃ group ∈ groupsOf captures, capture ∈ group := by
  have hmem : capture ∈ captures.filter fun other =>
      sessionGroupKey other == sessionGroupKey capture :=
    List.mem_filter.mpr ⟨h, by simp⟩
  exact ⟨_, mem_groupsOf.mpr ⟨List.ne_nil_of_mem hmem, _, rfl⟩, hmem⟩

/-- A selection that keeps or drops whole groups gives the groups that it keeps. -/
theorem groupsOf_filter {keep : Json → Bool}
    (huniform : ∀ group ∈ groupsOf captures, ∀ a ∈ group, ∀ b ∈ group, keep a = keep b) :
    groupsOf (captures.filter keep) = (groupsOf captures).filter fun group => group.any keep := by
  have hitems : (captures.filter keep).map (fun capture => (sessionGroupKey capture, capture)) =
      (captures.map fun capture => (sessionGroupKey capture, capture)).filter fun item =>
        keep item.2 := by
    rw [List.filter_map]
    rfl
  rw [groupsOf, hitems, Table.pushAll_filter, groupsOf, List.filter_map]
  · rfl
  · intro a ha b hb hkey
    obtain ⟨capture, hcapture, rfl⟩ := List.mem_map.mp ha
    obtain ⟨other, hother, rfl⟩ := List.mem_map.mp hb
    obtain ⟨group, hgroup, hmem⟩ := exists_group hcapture
    apply huniform group hgroup capture hmem other
    obtain ⟨_, key, rfl⟩ := mem_groupsOf.mp hgroup
    rw [List.mem_filter] at hmem ⊢
    have hsame : sessionGroupKey capture = sessionGroupKey other := hkey
    exact ⟨hother, hsame ▸ hmem.2⟩

end Groups

section Records

variable {assembler : Assembler}

theorem get_mkFields_named {fields : List (String × Json)} (names : List String)
    (hnames : fields.map Prod.fst = names) (hnodup : names.Nodup) {key : String}
    {value : Option Json} (h : OrdMap.lookup key fields = value) :
    JsonMap.get (Json.mkFields fields) key = value :=
  (Json.get?_mkObj (hnames ▸ hnodup) key).trans h

/-- The captures that a record names. -/
def sourceCaptureIds (record : Json) : Option Json :=
  (record.get? "meta").bind fun details => details.get? "source_capture_ids"

/-- The Sessions in the task graph of a record. -/
def taskNodes (record : Json) : Option Json :=
  ((record.get? "meta").bind fun details => details.get? "task_dag").bind fun graph =>
    graph.get? "nodes"

theorem get?_value (session : Session) : session.value.get? "meta" = some (.obj session.details) :=
  JsonMap.get_insert_self

theorem sourceCaptureIds_attachTask (task : List Session) (ordered : List Json)
    (identity : String × String) (content : SessionContent) :
    sourceCaptureIds (attachTask task (sessionOf assembler ordered identity content)).value =
      some (.arr (ordered.map fun capture => .str (captureIdOf capture))) := by
  rw [sourceCaptureIds, get?_value, Option.bind_some]
  change JsonMap.get (attachTask task (sessionOf assembler ordered identity content)).details
    "source_capture_ids" = _
  rw [attachTask, sessionOf]
  repeat rw [JsonMap.get_insert_of_ne (by decide)]
  exact JsonMap.get_insert_self

theorem taskNodes_attachTask (task : List Session) (session : Session) :
    ∃ nodes, taskNodes (attachTask task session).value = some (.arr nodes) ∧
      nodes.length = task.length := by
  refine ⟨task.map (taskNode (((task.head?).map Session.rootSessionId).getD
    session.rootSessionId)), ?_, List.length_map _⟩
  rw [taskNodes, get?_value, Option.bind_some]
  have hgraph : (Json.obj (attachTask task session).details).get? "task_dag" =
      some (taskGraph (((task.head?).map Session.rootSessionId).getD session.rootSessionId)
        task) := by
    change JsonMap.get (attachTask task session).details "task_dag" = _
    rw [attachTask, JsonMap.get_insert_of_ne (by decide)]
    exact JsonMap.get_insert_self
  rw [hgraph, Option.bind_some, taskGraph, Json.mkObj]
  apply get_mkFields_named ["root_session_id", "nodes", "edges", "unresolved_parent_session_ids",
    "complete"] rfl (by decide)
  rfl

/-- The key of the task of the record of a group. -/
def groupTaskKey (assembler : Assembler) (captures : List Json) : String :=
  let ordered := assembler.sortCaptures captures
  let space := sourceNamespace ordered
  let trace := mergeTraces ordered
  let identity := ((ordered.head?.map fun first => (identityOf first).1).filter fun value =>
    !Text.isBlank value).getD "missing"
  let root := (((trace.get "root_session_id").or (trace.get "parent_session_id")).bind
    Json.asStr).getD identity
  s!"{space}\x00{root}"

theorem taskKey_sessionOf (first : Json) (rest : List Json) (content : SessionContent)
    {captures : List Json} (hsort : assembler.sortCaptures captures = first :: rest) :
    (sessionOf assembler (first :: rest) (identityOf first) content).taskKey =
      groupTaskKey assembler captures := by
  have hid : JsonMap.get (sessionOf assembler (first :: rest) (identityOf first) content).fields
      "session_id" = some (.str (identityOf first).1) := by
    rw [sessionOf]
    apply get_mkFields_named ["schema_version", "trajectory_id", "session_id", "dataset",
      "provider", "model", "created_at", "ended_at", "status", "is_final_snapshot",
      "source_request_count", "source_capture_count", "system_prompt", "tools", "messages",
      "usage"] rfl (by decide)
    rfl
  have hspace : JsonMap.get (sessionOf assembler (first :: rest) (identityOf first)
      content).details "source_namespace" = some (.str (sourceNamespace (first :: rest))) := by
    rw [sessionOf]
    repeat rw [JsonMap.get_insert_of_ne (by decide)]
    exact JsonMap.get_insert_self
  have htrace : JsonMap.get (sessionOf assembler (first :: rest) (identityOf first)
      content).details "trace" = some (.obj (mergeTraces (first :: rest))) :=
    JsonMap.get_insert_self
  have hroot : (sessionOf assembler (first :: rest) (identityOf first) content).rootSessionId =
      (((JsonMap.get (mergeTraces (first :: rest)) "root_session_id").or
        (JsonMap.get (mergeTraces (first :: rest)) "parent_session_id")).bind Json.asStr).getD
          (((some (identityOf first).1).filter fun value => !Text.isBlank value).getD
            "missing") := by
    rw [Session.rootSessionId, Session.sessionId, Session.text, Session.trace, JsonMap.str?,
      JsonMap.object?, hid, htrace]
    rfl
  rw [Session.taskKey, JsonMap.str?, hspace, hroot, groupTaskKey, hsort]
  rfl

/-- An assembled group is one identity in its order. -/
theorem assembleGroup_eq {captures : List Json} {assembled : AssembledGroup}
    (h : assembleGroup assembler captures = .ok assembled) :
    ∃ first rest content, assembler.sortCaptures captures = first :: rest ∧
      assembled.session = sessionOf assembler (first :: rest) (identityOf first) content := by
  rw [assembleGroup, Except.bind_eq_ok_iff] at h
  obtain ⟨content, _, h⟩ := h
  split at h
  · cases h
  · rename_i first rest hsort
    simp only at h
    split_ifs at h
    obtain rfl := Except.ok.inj h
    exact ⟨first, rest, content, hsort, rfl⟩

theorem groupTaskKey_of_assembled {captures : List Json} {assembled : AssembledGroup}
    (h : assembleGroup assembler captures = .ok assembled) :
    assembled.session.taskKey = groupTaskKey assembler captures := by
  obtain ⟨first, rest, content, hsort, hsession⟩ := assembleGroup_eq h
  rw [hsession]
  exact taskKey_sessionOf first rest content hsort

theorem sourceCaptureIds_of_assembled {captures : List Json} {assembled : AssembledGroup}
    (h : assembleGroup assembler captures = .ok assembled) (task : List Session) :
    sourceCaptureIds (attachTask task assembled.session).value =
      some (.arr ((assembler.sortCaptures captures).map fun capture =>
        .str (captureIdOf capture))) := by
  obtain ⟨first, rest, content, hsort, hsession⟩ := assembleGroup_eq h
  rw [hsession, hsort]
  exact sourceCaptureIds_attachTask task (first :: rest) (identityOf first) content

end Records

section Partition

variable {assembler : Assembler} {captures : List Json} {assembled : List AssembledGroup}

/-- The records of Sessions, each with the graph of its task. -/
def recordsOf (sessions : List Session) : List Json := (attachTaskDags sessions).map Session.value

/-- A processed partition has a record for every group. -/
theorem processPartition_ok_iff {result : PartitionResult} :
    processPartition assembler captures = .ok result ↔
      ∃ assembled, (groupsOf captures).mapM (assembleGroup assembler) = .ok assembled ∧
        (∀ record ∈ recordsOf (assembled.map AssembledGroup.session),
          assembler.validateSession record = .ok ()) ∧
        result =
          { records := recordsOf (assembled.map AssembledGroup.session)
            orphanSessions := (assembled.filter AssembledGroup.orphan).length
            mergeDivergences := (assembled.map AssembledGroup.divergences).sum } := by
  have hvalid : ∀ sessions : List Session,
      (attachTaskDags sessions).forM (fun session => assembler.validateSession session.value) =
          .ok ⟨⟩ ↔
        ∀ record ∈ recordsOf sessions, assembler.validateSession record = .ok () := by
    intro sessions
    rw [List.forM_eq_ok_iff, recordsOf, List.forall_mem_map]
  rw [processPartition, Except.bind_eq_ok_iff]
  constructor
  · rintro ⟨assembled, hgroups, h⟩
    obtain ⟨⟨⟩, hcheck, h⟩ := Except.bind_eq_ok_iff.mp h
    exact ⟨assembled, hgroups, (hvalid _).mp hcheck, (Except.pure_eq_ok_iff.mp h).symm⟩
  · rintro ⟨assembled, hgroups, hcheck, rfl⟩
    exact ⟨assembled, hgroups, Except.bind_eq_ok_iff.mpr ⟨⟨⟩, (hvalid _).mpr hcheck, rfl⟩⟩

/-- The records of some of the Sessions are those that they have among all, exactly when no task
has Sessions that are left out next to Sessions that are kept. -/
theorem recordsOf_keptOf_iff {α : Type} {keep : α → Bool} {items : List α}
    {sessions : List Session} (hlength : items.length = sessions.length) :
    recordsOf (keptOf keep items sessions) = keptOf keep items (recordsOf sessions) ↔
      ∀ pair ∈ items.zip sessions, keep pair.1 = true →
        ∀ other ∈ items.zip sessions, other.2.taskKey = pair.2.taskKey →
          keep other.1 = true := by
  have hall : (items.zip sessions).map Prod.snd = sessions :=
    List.map_snd_zip hlength.ge
  have htask : ∀ session : Session, ∀ pairs : List (α × Session),
      ((pairs.map Prod.snd).filter fun other => other.taskKey == session.taskKey) =
        (pairs.filter fun pair => pair.2.taskKey == session.taskKey).map Prod.snd := by
    intro session pairs
    rw [List.filter_map]
    rfl
  rw [recordsOf, recordsOf, attachTaskDags, attachTaskDags, keptOf_map, keptOf_map,
    List.map_map, List.map_map, List.map_inj_left]
  constructor
  · intro h pair hpair hkeep other hother hkey
    have hmem : pair.2 ∈ keptOf keep items sessions := mem_keptOf.mpr ⟨pair.1, hpair, hkeep⟩
    obtain ⟨nodes, hnodes, hcount⟩ := taskNodes_attachTask
      ((keptOf keep items sessions).filter fun other => other.taskKey == pair.2.taskKey) pair.2
    obtain ⟨allNodes, hallNodes, hallCount⟩ := taskNodes_attachTask
      (sessions.filter fun other => other.taskKey == pair.2.taskKey) pair.2
    have hsame : nodes = allNodes := by
      have heq := congrArg taskNodes (h pair.2 hmem)
      rw [Function.comp_apply, Function.comp_apply, hnodes, hallNodes] at heq
      exact Json.arr.inj (Option.some.inj heq)
    have hkeptTask := htask pair.2 ((items.zip sessions).filter fun pair => keep pair.1)
    have hallTask := htask pair.2 (items.zip sessions)
    rw [hall] at hallTask
    rw [hsame, hallCount, keptOf, hkeptTask, hallTask, List.length_map, List.length_map,
      List.filter_comm] at hcount
    have hself := List.filter_sublist.eq_of_length hcount.symm
    have hin : other ∈ (items.zip sessions).filter fun other =>
        other.2.taskKey == pair.2.taskKey := List.mem_filter.mpr ⟨hother, by simpa using hkey⟩
    exact List.filter_eq_self.mp hself other hin
  · intro h session hsession
    obtain ⟨item, hpair, hkeep⟩ := mem_keptOf.mp hsession
    have hkeptTask := htask session ((items.zip sessions).filter fun pair => keep pair.1)
    have hallTask := htask session (items.zip sessions)
    rw [hall] at hallTask
    have hself : (((items.zip sessions).filter fun pair => keep pair.1).filter fun pair =>
        pair.2.taskKey == session.taskKey) =
          (items.zip sessions).filter fun pair => pair.2.taskKey == session.taskKey := by
      rw [List.filter_comm, List.filter_eq_self]
      intro other hother
      obtain ⟨hin, hkey⟩ := List.mem_filter.mp hother
      exact h (item, session) hpair hkeep other hin (by simpa using hkey)
    rw [Function.comp_apply, Function.comp_apply, keptOf, hkeptTask, hself, hallTask]

end Partition

end ChipTrace.Assemble
