/-
What one scan of the usage-log exporter returns: the oldest logs above the cursor, unless its page
cap cuts it short.
-/
import ChipTrace.Gateway.UsageExport
import Mathlib.Data.Finset.Card

namespace ChipTrace.Gateway

section Order

variable {logs older : List UsageLog} {x y : UsageLog}

/-- The logs of the service, newest first: ids and creation times increase together. -/
structure Newest (logs : List UsageLog) : Prop where
  pos : ∀ log ∈ logs, 0 < log.id
  order : logs.Pairwise fun newer older => older.id < newer.id ∧ older.createdAt ≤ newer.createdAt

theorem Newest.of_suffix (h : Newest logs) (hsuffix : older <:+ logs) : Newest older where
  pos := fun log hlog => h.pos log (hsuffix.mem hlog)
  order := h.order.sublist hsuffix.sublist

theorem Newest.createdAt_le (h : Newest logs) (hx : x ∈ logs) (hy : y ∈ logs)
    (hle : x.id ≤ y.id) : x.createdAt ≤ y.createdAt := by
  refine List.Pairwise.forall_of_forall_of_flip
    (R := fun a b : UsageLog => a.id ≤ b.id → a.createdAt ≤ b.createdAt)
    (fun _ _ _ => Int.le_refl _) ?_ ?_ hx hy hle
  · exact h.order.imp fun horder hle => absurd hle (Nat.not_le.mpr horder.1)
  · exact h.order.imp fun horder _ => horder.2

theorem Newest.eq_of_id (h : Newest logs) (hx : x ∈ logs) (hy : y ∈ logs) (hid : x.id = y.id) :
    x = y := by
  refine List.Pairwise.forall_of_forall_of_flip (R := fun a b : UsageLog => a.id = b.id → a = b)
    (fun _ _ _ => rfl) ?_ ?_ hx hy hid
  · exact h.order.imp fun horder hid => absurd hid horder.1.ne'
  · exact h.order.imp fun horder hid => absurd hid horder.1.ne

/-- A log that is not newer than an old one is old. -/
theorem Newest.mem_of_suffix (h : Newest logs) (hsuffix : older <:+ logs) (hx : x ∈ older)
    (hy : y ∈ logs) (hle : y.id ≤ x.id) : y ∈ older := by
  obtain ⟨more, rfl⟩ := hsuffix
  rcases List.mem_append.mp hy with hmore | holder
  · exact absurd hle (Nat.not_le.mpr ((List.pairwise_append.mp h.order).2.2 y hmore x hx).1)
  · exact holder

theorem formatDay_mono {first second : Int} (hle : first ≤ second) :
    formatDay first ≤ formatDay second :=
  Int.ediv_le_ediv (by decide) (Int.add_le_add_right hle _)

theorem logsAt_grows (run : Run) (logs : List UsageLog) (page : Nat) :
    run.logsAt logs page <:+ run.logsAt logs (page + 1) :=
  List.suffix_append _ _

theorem suffix_logsAt (run : Run) (logs : List UsageLog) (page : Nat) :
    logs <:+ run.logsAt logs page :=
  List.IsSuffix.trans (List.suffix_append _ _)
    (Paging.suffix_of_le (logsAt_grows run logs) (Nat.zero_le page))

theorem mem_listed {start stop : Int} :
    x ∈ listed start stop logs ↔
      x ∈ logs ∧ formatDay start ≤ formatDay x.createdAt ∧
        formatDay x.createdAt ≤ formatDay stop := by
  rw [listed, List.mem_filter, Bool.and_eq_true, decide_eq_true_eq, decide_eq_true_eq]

theorem listed_suffix {start stop : Int} (hsuffix : older <:+ logs) :
    listed start stop older <:+ listed start stop logs :=
  hsuffix.filter _

theorem Newest.listed (h : Newest logs) (start stop : Int) : Newest (listed start stop logs) where
  pos := fun log hlog => h.pos log (mem_listed.mp hlog).1
  order := h.order.sublist List.filter_sublist

end Order

section Pages

variable {config : TraceExportConfig} {lastId : Nat} {seen items : List UsageLog}
  {candidates : Table Nat UsageLog} {listing : Nat → List UsageLog}

/-- The candidates are the logs above the cursor among those that were seen. -/
structure Collected (lastId : Nat) (seen : List UsageLog) (candidates : Table Nat UsageLog) :
    Prop where
  sound : ∀ id log, candidates.get? id = some log → log.id = id ∧ log ∈ seen ∧ lastId < id
  complete : ∀ log ∈ seen, lastId < log.id → ∃ other, candidates.get? log.id = some other

theorem collected_nil (lastId : Nat) : Collected lastId [] Table.empty where
  sound := fun id log hget => by cases hget
  complete := fun log hlog => absurd hlog List.not_mem_nil

theorem Collected.insert (h : Collected lastId seen candidates) {item : UsageLog}
    (habove : lastId < item.id) :
    Collected lastId (seen ++ [item]) (candidates.insert item.id item) where
  sound := by
    intro id log hget
    rw [Table.get?_insert] at hget
    split at hget
    · next hid =>
        cases hget
        exact ⟨hid.symm, List.mem_append_right seen (List.mem_singleton_self _), hid ▸ habove⟩
    · obtain ⟨hid, hseen, hlast⟩ := h.sound id log hget
      exact ⟨hid, List.mem_append_left _ hseen, hlast⟩
  complete := by
    intro log hlog hlast
    rw [Table.get?_insert]
    split
    · exact ⟨item, rfl⟩
    · next hne =>
        rcases List.mem_append.mp hlog with hseen | hitem
        · exact h.complete log hseen hlast
        · exact absurd (congrArg UsageLog.id (List.mem_singleton.mp hitem)) hne

theorem Collected.skip (h : Collected lastId seen candidates) {item : UsageLog}
    (hbelow : item.id ≤ lastId) : Collected lastId (seen ++ [item]) candidates where
  sound := fun id log hget => by
    obtain ⟨hid, hseen, hlast⟩ := h.sound id log hget
    exact ⟨hid, List.mem_append_left _ hseen, hlast⟩
  complete := fun log hlog hlast => by
    rcases List.mem_append.mp hlog with hseen | hitem
    · exact h.complete log hseen hlast
    · rw [List.mem_singleton.mp hitem] at hlast
      exact absurd hbelow (Nat.not_le.mpr hlast)

theorem Collected.takeCandidates (h : Collected lastId seen candidates) (items : List UsageLog) :
    Collected lastId (seen ++ items) (takeCandidates lastId items candidates) := by
  induction items generalizing seen candidates with
  | nil =>
      rw [List.append_nil]
      exact h
  | cons item rest ih =>
      rw [← List.singleton_append, ← List.append_assoc]
      rw [Gateway.takeCandidates, List.singleton_append, List.foldl_cons]
      by_cases hzero : item.id = 0
      · rw [if_pos hzero]
        exact ih (h.skip (hzero ▸ Nat.zero_le _))
      · rw [if_neg hzero]
        by_cases hbelow : item.id ≤ lastId
        · rw [if_pos hbelow]
          exact ih (h.skip hbelow)
        · rw [if_neg hbelow]
          exact ih (h.insert (Nat.not_le.mp hbelow))

/-- The first pages, each of the listing at its time. -/
def onPages (config : TraceExportConfig) (listing : Nat → List UsageLog) (count : Nat) :
    List UsageLog :=
  (List.range count).flatMap fun number => Paging.page config.pageSize number (listing number)

theorem onPages_succ (config : TraceExportConfig) (listing : Nat → List UsageLog) (count : Nat) :
    onPages config listing (count + 1) =
      onPages config listing count ++ Paging.page config.pageSize count (listing count) := by
  rw [onPages, List.range_succ, List.flatMap_append, List.flatMap_singleton, onPages]

theorem mem_onPages {count : Nat} {log : UsageLog} :
    log ∈ onPages config listing count ↔
      ∃ number < count, log ∈ Paging.page config.pageSize number (listing number) := by
  rw [onPages, List.mem_flatMap]
  simp only [List.mem_range]

/-- A page that is not full, or holds a log that is not above the cursor. -/
def Reaches (config : TraceExportConfig) (lastId : Nat) (items : List UsageLog) : Prop :=
  items.length < config.pageSize ∨ ∃ item ∈ items, item.id ≠ 0 ∧ item.id ≤ lastId

theorem reaches_iff (config : TraceExportConfig) (lastId : Nat) (items : List UsageLog) :
    (items.isEmpty || items.any (fun item => decide (item.id ≠ 0) && decide (item.id ≤ lastId)) ||
      decide (items.length < config.pageSize)) = true ↔ Reaches config lastId items := by
  simp only [Bool.or_eq_true, List.isEmpty_iff, List.any_eq_true, Bool.and_eq_true,
    decide_eq_true_eq, Reaches]
  constructor
  · rintro ((rfl | hany) | hshort)
    · exact Or.inl config.pageSize_mem.1
    · exact Or.inr hany
    · exact Or.inl hshort
  · rintro (hshort | hany)
    · exact Or.inr hshort
    · exact Or.inl (Or.inr hany)

/-- A scan of some pages, the last of which reaches the cursor if the scan does. -/
structure Scanned (config : TraceExportConfig) (lastId : Nat) (listing : Nat → List UsageLog)
    (scan : UsageScan) : Prop where
  collected : Collected lastId (onPages config listing scan.pages) scan.candidatesById
  full : scan.reachedCursor = false → ∀ number < scan.pages,
    ¬ Reaches config lastId (Paging.page config.pageSize number (listing number))
  reached : scan.reachedCursor = true → ∃ last, scan.pages = last + 1 ∧
    Reaches config lastId (Paging.page config.pageSize last (listing last))

theorem scanned_start (config : TraceExportConfig) (lastId : Nat)
    (listing : Nat → List UsageLog) : Scanned config lastId listing {} where
  collected := collected_nil lastId
  full := fun _ number hnumber => absurd hnumber (Nat.not_lt_zero number)
  reached := fun hreached => by cases hreached

theorem scanPages_spec {listAdminUsagePage : Nat → Except String (List UsageLog)}
    (hlist : ∀ number items, listAdminUsagePage number = .ok items →
      items = Paging.page config.pageSize number (listing number))
    {remaining : Nat} {scan last : UsageScan} (hopen : scan.reachedCursor = false)
    (hscan : Scanned config lastId listing scan)
    (hpages : scanPages config lastId listAdminUsagePage remaining scan = .ok last) :
    Scanned config lastId listing last ∧ last.pages ≤ scan.pages + remaining ∧
      (last.reachedCursor = false → last.pages = scan.pages + remaining) := by
  induction remaining generalizing scan with
  | zero =>
      cases hpages
      exact ⟨hscan, Nat.le_refl _, fun _ => rfl⟩
  | succ remaining ih =>
      rw [scanPages] at hpages
      obtain ⟨items, hitems, hnext⟩ := Except.bind_eq_ok_iff.mp hpages
      obtain rfl := hlist scan.pages items hitems
      have hcollected := hscan.collected.takeCandidates
        (Paging.page config.pageSize scan.pages (listing scan.pages))
      rw [← onPages_succ] at hcollected
      simp only at hnext
      split at hnext
      · next hreached =>
          cases hnext
          refine ⟨⟨hcollected, fun hfalse => ?_, fun _ => ⟨scan.pages, rfl, ?_⟩⟩, ?_,
            fun hfalse => ?_⟩
          · exact absurd (hreached.symm.trans hfalse) (by decide)
          · exact (reaches_iff config lastId _).mp hreached
          · exact Nat.add_le_add_left (Nat.succ_le_succ (Nat.zero_le _)) _
          · exact absurd (hreached.symm.trans hfalse) (by decide)
      · next hopenNext =>
          have hfull : ∀ number < scan.pages + 1,
              ¬ Reaches config lastId (Paging.page config.pageSize number (listing number)) := by
            intro number hnumber
            rcases Nat.lt_succ_iff_lt_or_eq.mp hnumber with hlt | rfl
            · exact hscan.full hopen number hlt
            · exact (reaches_iff config lastId _).not.mp hopenNext
          obtain ⟨hlast, hle, hall⟩ := ih (Bool.eq_false_iff.mpr hopenNext)
            ⟨hcollected, fun _ => hfull, fun hreached => absurd hreached hopenNext⟩ hnext
          rw [Nat.add_right_comm, Nat.add_assoc] at hle hall
          exact ⟨hlast, hle, hall⟩

/-- Where every page that is asked for is full and above the cursor, and few enough logs are on
them to be exported: the logs behind the last page are at or below the cursor, or an earlier page
had them. -/
def NothingLeft (config : TraceExportConfig) (lastId : Nat) (listing : Nat → List UsageLog) :
    Prop :=
  (∀ number < config.maxScanPages,
    ¬ Reaches config lastId (Paging.page config.pageSize number (listing number))) →
  ((onPages config listing config.maxScanPages).map UsageLog.id).toFinset.card ≤ config.batchSize →
  ∀ log ∈ Paging.behind config.pageSize (config.maxScanPages - 1)
      (listing (config.maxScanPages - 1)),
    lastId < log.id → log ∈ onPages config listing config.maxScanPages

/-- Nothing above the cursor is left behind a page that reaches it. -/
theorem behind_of_reaches (hnewest : Newest items) {number : Nat}
    (hreaches : Reaches config lastId (Paging.page config.pageSize number items))
    {log : UsageLog} (hlog : log ∈ Paging.behind config.pageSize number items) :
    log.id ≤ lastId := by
  rcases hreaches with hshort | ⟨item, hitem, _, hbelow⟩
  · rw [Paging.behind_eq_nil hshort] at hlog
    exact absurd hlog List.not_mem_nil
  · have holder := Paging.page_before_behind hnewest.order hitem hlog
    exact holder.1.le.trans hbelow

section Seen

variable (hgrows : ∀ number, listing number <:+ listing (number + 1)) {last : Nat}
  (hleft : ∀ log ∈ Paging.behind config.pageSize last (listing last), lastId < log.id →
    log ∈ onPages config listing (last + 1))

include hgrows hleft

theorem seen_of_behind {first : Nat} (hle : first ≤ last) {log : UsageLog}
    (hlog : log ∈ Paging.behind config.pageSize first (listing first)) (habove : lastId < log.id) :
    log ∈ onPages config listing (last + 1) := by
  rcases Paging.later_page_or_behind hgrows hle hlog with ⟨number, hnumber, hpage⟩ | hbehind
  · exact mem_onPages.mpr ⟨number, Nat.lt_succ_of_le hnumber, hpage⟩
  · exact hleft log hbehind habove

/-- What is listed when the first page is asked for is seen. -/
theorem seen_of_listed {log : UsageLog} (hlog : log ∈ listing 0) (habove : lastId < log.id) :
    log ∈ onPages config listing (last + 1) := by
  have hparts := Paging.page_append_behind config.pageSize 0 (listing 0)
  rw [Nat.zero_mul, List.drop_zero] at hparts
  rw [← hparts, List.mem_append] at hlog
  rcases hlog with hpage | hbehind
  · exact mem_onPages.mpr ⟨0, Nat.succ_pos last, hpage⟩
  · exact seen_of_behind hgrows hleft (Nat.zero_le last) hbehind habove

/-- With a log, every older log above the cursor is seen. -/
theorem seen_of_older {bound : Nat} (hnewest : Newest (listing bound)) (hlast : last < bound)
    {newer older : UsageLog} (hseen : newer ∈ onPages config listing (last + 1))
    (hlisted : older ∈ listing bound) (holder : older.id < newer.id) (habove : lastId < older.id) :
    older ∈ onPages config listing (last + 1) := by
  obtain ⟨first, hfirst, hpage⟩ := mem_onPages.mp hseen
  have hsuffix : listing first <:+ listing bound :=
    Paging.suffix_of_le hgrows ((Nat.le_of_lt_succ hfirst).trans hlast.le)
  have hmem : older ∈ listing first :=
    hnewest.mem_of_suffix hsuffix (Paging.mem_of_mem_page hpage) hlisted holder.le
  rcases Paging.on_page_or_behind (hnewest.of_suffix hsuffix).order hpage hmem
    (fun hbefore => absurd hbefore.1 (Nat.not_lt.mpr holder.le)) with hon | hbehind
  · exact mem_onPages.mpr ⟨first, hfirst, hon⟩
  · exact seen_of_behind hgrows hleft (Nat.le_of_lt_succ hfirst) hbehind habove

end Seen

end Pages

section Fetch

variable {config : TraceExportConfig} {lastId : Nat} {seen : List UsageLog}
  {candidates : Table Nat UsageLog} {listing : Nat → List UsageLog}

theorem Collected.of_mem_entries (h : Collected lastId seen candidates) {entry : Nat × UsageLog}
    (hentry : entry ∈ candidates.entries) :
    entry.2.id = entry.1 ∧ entry.2 ∈ seen ∧ lastId < entry.1 :=
  h.sound entry.1 entry.2 ((candidates.mem_entries entry.1 entry.2).mp hentry)

/-- The candidates in the order of their ids. -/
theorem Collected.ascending (h : Collected lastId seen candidates) :
    (candidates.entries.map Prod.snd).Pairwise fun older newer => older.id < newer.id := by
  rw [List.pairwise_map]
  refine candidates.sorted.imp_of_mem fun {left right} hleft hright hlt => ?_
  rw [(h.of_mem_entries hleft).1, (h.of_mem_entries hright).1]
  exact hlt

theorem Collected.of_mem (h : Collected lastId seen candidates) {log : UsageLog}
    (hlog : log ∈ candidates.entries.map Prod.snd) : log ∈ seen ∧ lastId < log.id := by
  obtain ⟨entry, hentry, rfl⟩ := List.mem_map.mp hlog
  obtain ⟨hid, hseen, habove⟩ := h.of_mem_entries hentry
  exact ⟨hseen, hid.symm ▸ habove⟩

theorem Collected.mem (h : Collected lastId seen candidates)
    (hunique : ∀ x ∈ seen, ∀ y ∈ seen, x.id = y.id → x = y) {log : UsageLog} (hlog : log ∈ seen)
    (habove : lastId < log.id) : log ∈ candidates.entries.map Prod.snd := by
  obtain ⟨other, hother⟩ := h.complete log hlog habove
  obtain ⟨hid, hseen, _⟩ := h.sound log.id other hother
  rw [← hunique other hseen log hlog hid]
  exact List.mem_map_of_mem ((candidates.mem_entries log.id other).mpr hother)

/-- Where every log seen is above the cursor, there is one candidate for each of their ids. -/
theorem Collected.length_eq (h : Collected lastId seen candidates)
    (habove : ∀ log ∈ seen, lastId < log.id) :
    (candidates.entries.map Prod.snd).length = (seen.map UsageLog.id).toFinset.card := by
  have hids : (seen.map UsageLog.id).toFinset = (candidates.entries.map Prod.fst).toFinset := by
    ext id
    rw [List.mem_toFinset, List.mem_toFinset, List.mem_map, ← Table.keys, Table.mem_keys]
    constructor
    · rintro ⟨log, hlog, rfl⟩
      exact h.complete log hlog (habove log hlog)
    · rintro ⟨log, hget⟩
      obtain ⟨hid, hseen, _⟩ := h.sound id log hget
      exact ⟨log, hseen, hid⟩
  rw [hids, List.toFinset_card_of_nodup candidates.sorted.nodup, List.length_map, List.length_map]

/-- What the oldest of an ascending list come with. -/
theorem mem_take_of_le {logs : List UsageLog} {count : Nat}
    (hascending : logs.Pairwise fun older newer => older.id < newer.id) {newer older : UsageLog}
    (hnewer : newer ∈ logs.take count) (holder : older ∈ logs) (hle : older.id ≤ newer.id) :
    older ∈ logs.take count := by
  rw [← List.take_append_drop count logs] at hascending holder
  rcases List.mem_append.mp holder with htake | hdrop
  · exact htake
  · have hlt := (List.pairwise_append.mp hascending).2.2 newer hnewer older hdrop
    exact absurd hle (Nat.not_le.mpr hlt)

/-- What a run scans: in the order of ids, the oldest logs above the cursor. -/
structure Fetched (config : TraceExportConfig) (lastId : Nat) (listing : Nat → List UsageLog)
    (logs : List UsageLog) : Prop where
  ascending : logs.Pairwise fun older newer => older.id < newer.id
  listed : ∀ log ∈ logs, lastId < log.id ∧ log ∈ listing config.maxScanPages
  closed : ∀ newer ∈ logs, ∀ older ∈ listing config.maxScanPages, lastId < older.id →
    older.id ≤ newer.id → older ∈ logs
  oldest : ∀ log ∈ listing 0, lastId < log.id → ∃ first ∈ logs, first.id ≤ log.id

section Window

variable (hgrows : ∀ number, listing number <:+ listing (number + 1))
  (hnewest : Newest (listing config.maxScanPages))

include hgrows

theorem mem_of_onPages {count : Nat} (hcount : count ≤ config.maxScanPages) {log : UsageLog}
    (hlog : log ∈ onPages config listing count) : log ∈ listing config.maxScanPages := by
  obtain ⟨number, hnumber, hpage⟩ := mem_onPages.mp hlog
  have hsuffix : listing number <:+ listing config.maxScanPages :=
    Paging.suffix_of_le hgrows (hnumber.le.trans hcount)
  exact hsuffix.mem (Paging.mem_of_mem_page hpage)

include hnewest

theorem newest_of_page {number : Nat} (hnumber : number < config.maxScanPages) :
    Newest (listing number) :=
  hnewest.of_suffix (Paging.suffix_of_le hgrows hnumber.le)

/-- Nothing above the cursor is left unseen behind the last page of a scan that reaches the cursor,
or that is cut short with few candidates. -/
theorem Scanned.nothing_left {scan : UsageScan} {last : Nat}
    (h : Scanned config lastId listing scan) (hlast : scan.pages = last + 1)
    (hle : scan.pages ≤ config.maxScanPages)
    (hopen : scan.reachedCursor = false → scan.pages = config.maxScanPages ∧
      (scan.candidatesById.entries.map Prod.snd).length ≤ config.batchSize)
    (hleft : NothingLeft config lastId listing) :
    ∀ log ∈ Paging.behind config.pageSize last (listing last), lastId < log.id →
      log ∈ onPages config listing (last + 1) := by
  intro log hlog habove
  have hnewestLast := newest_of_page hgrows hnewest (Nat.lt_of_succ_le (hlast ▸ hle))
  cases hreached : scan.reachedCursor with
  | true =>
      obtain ⟨number, hnumber, hreaches⟩ := h.reached hreached
      obtain rfl : last = number := Nat.succ.inj (hlast.symm.trans hnumber)
      exact absurd (behind_of_reaches hnewestLast hreaches hlog) (Nat.not_le.mpr habove)
  | false =>
      obtain ⟨hpages, hfew⟩ := hopen hreached
      have hfull := h.full hreached
      have hcollected := h.collected
      rw [hpages] at hfull hcollected
      have hallAbove : ∀ log ∈ onPages config listing config.maxScanPages, lastId < log.id := by
        intro log hlog
        obtain ⟨number, hnumber, hpage⟩ := mem_onPages.mp hlog
        have hpos := (newest_of_page hgrows hnewest hnumber).pos log (Paging.mem_of_mem_page hpage)
        by_contra hbelow
        exact hfull number hnumber (Or.inr ⟨log, hpage, hpos.ne', Nat.not_lt.mp hbelow⟩)
      rw [hcollected.length_eq hallAbove] at hfew
      have hbound : config.maxScanPages = last + 1 := hpages.symm.trans hlast
      have hshown := hleft hfull hfew
      rw [hbound, Nat.add_sub_cancel] at hshown
      exact hshown log hlog habove

theorem fetched {state : ExportState} {now : Int}
    {listAdminUsagePage : Int → Int → Nat → Except String (List UsageLog)}
    (hlist : ∀ number items,
      listAdminUsagePage (scanStart config state now) now number = .ok items →
        items = Paging.page config.pageSize number (listing number))
    (hleft : NothingLeft config state.lastUsageLogId listing) {logs : List UsageLog}
    {scan : UsageScan}
    (hfetch : fetchTraceExportUsageLogs config state now listAdminUsagePage = .ok (logs, scan)) :
    Fetched config state.lastUsageLogId listing logs := by
  obtain ⟨found, hscan, hrest⟩ := Except.bind_eq_ok_iff.mp hfetch
  obtain ⟨hscanned, hle, hall⟩ := scanPages_spec hlist rfl (scanned_start config _ listing) hscan
  rw [Nat.zero_add] at hle hall
  simp only at hrest
  split at hrest
  · cases hrest
  · next hpassed =>
      cases hrest
      have hopen : scan.reachedCursor = false → scan.pages = config.maxScanPages ∧
          (scan.candidatesById.entries.map Prod.snd).length ≤ config.batchSize := by
        intro hfalse
        rw [hfalse, Bool.not_false, Bool.true_and, decide_eq_true_eq] at hpassed
        exact ⟨hall hfalse, Nat.not_lt.mp hpassed⟩
      obtain ⟨last, hlast⟩ : ∃ last, scan.pages = last + 1 := by
        cases hreached : scan.reachedCursor with
        | true =>
            obtain ⟨last, hlast, _⟩ := hscanned.reached hreached
            exact ⟨last, hlast⟩
        | false =>
            rw [hall hreached]
            exact Nat.exists_eq_succ_of_ne_zero (Nat.ne_of_gt config.maxScanPages_mem.1)
      have hbehind := hscanned.nothing_left hgrows hnewest hlast hle hopen hleft
      have hcollected := hscanned.collected
      rw [hlast] at hcollected hle
      have hascending := hcollected.ascending
      have hunique : ∀ x ∈ onPages config listing (last + 1),
          ∀ y ∈ onPages config listing (last + 1), x.id = y.id → x = y := fun x hx y hy =>
        hnewest.eq_of_id (mem_of_onPages hgrows hle hx) (mem_of_onPages hgrows hle hy)
      exact {
        ascending := hascending.sublist (List.take_sublist _ _)
        listed := fun log hlog => by
          obtain ⟨hseen, habove⟩ := hcollected.of_mem (List.mem_of_mem_take hlog)
          exact ⟨habove, mem_of_onPages hgrows hle hseen⟩
        closed := fun newer hnewer older holder habove holderLe => by
          have hcandidate := hcollected.of_mem (List.mem_of_mem_take hnewer)
          refine mem_take_of_le hascending hnewer (hcollected.mem hunique ?_ habove) holderLe
          rcases Nat.lt_or_eq_of_le holderLe with hlt | heq
          · exact seen_of_older hgrows hbehind hnewest (Nat.lt_of_succ_le hle) hcandidate.1 holder
              hlt habove
          · rw [hnewest.eq_of_id holder (mem_of_onPages hgrows hle hcandidate.1) heq]
            exact hcandidate.1
        oldest := fun log hlog habove => by
          have hmem := hcollected.mem hunique (seen_of_listed hgrows hbehind hlog habove) habove
          cases hcandidates : scan.candidatesById.entries.map Prod.snd with
          | nil =>
              rw [hcandidates] at hmem
              exact absurd hmem List.not_mem_nil
          | cons first rest =>
              rw [hcandidates] at hmem hascending
              obtain ⟨size, hsize⟩ : ∃ size, config.batchSize = size + 1 :=
                Nat.exists_eq_succ_of_ne_zero (Nat.ne_of_gt config.batchSize_mem.1)
              rw [hsize, List.take_succ_cons]
              refine ⟨first, List.mem_cons_self, ?_⟩
              rcases List.mem_cons.mp hmem with rfl | hrest
              · exact Nat.le_refl _
              · exact ((List.pairwise_cons.mp hascending).1 log hrest).le }

end Window

end Fetch

end ChipTrace.Gateway
