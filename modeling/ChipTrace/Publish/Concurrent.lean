/-
Any number of publishers and verifiers over one object store, any of them lost at any
point.  A visible COMMIT stands for its files; publishers of one artifact agree, and a
verifier accepts what they committed.
-/
import ChipTrace.Publish.Verifier
import ChipTrace.RawArchive.Agreement

namespace ChipTrace

namespace Publish

open Interleave

inductive StoreRequest where
  | publish (request : PublishRequest)
  | verify (config : VerifyPublishedConfig)

inductive StoreResult where
  | published (result : PublishResult)
  | verified (result : VerifyPublishedResult)

def StoreRequest.keyPrefix : StoreRequest → String
  | .publish request => request.config.keyPrefix
  | .verify config => config.keyPrefix

section System

variable (platform : Platform)

def serve : StoreRequest → ObjectProgram StoreResult
  | .publish request => do
      let result ← publish platform request
      pure (.published result)
  | .verify config => do
      let result ← verifyPublished platform config
      pure (.verified result)

/-- The publishers and verifiers over one store. -/
abbrev PublishSystem : Type := System ObjectStore ArchiveError StoreResult StoreRequest

def PublishSystem.start : PublishSystem := System.initial (S := ObjectStore) fun _ => none

/-- The system after a trace of actions. -/
def PublishSystem.after (trace : List (Action StoreRequest)) : PublishSystem :=
  Machine.run (System.apply (serve platform)) PublishSystem.start trace

/-- The requests that a trace starts. -/
def Started (trace : List (Action StoreRequest)) (request : StoreRequest) : Prop :=
  ∃ run, Action.start run request ∈ trace

def StartedPublish (trace : List (Action StoreRequest)) (request : PublishRequest) : Prop :=
  Started trace (.publish request)

/-- All requests of a trace name one prefix. -/
def Under (keyPrefix : String) (trace : List (Action StoreRequest)) : Prop :=
  ∀ request, Started trace request → normalizePrefix request.keyPrefix = .ok keyPrefix

end System

section Promises

variable (platform : Platform) (keyPrefix : String) (allowed : PublishRequest → Prop)

/-- Why a run may fail. -/
def MayFail : StoreRequest → ArchiveError → ObjectMap → Prop
  | .publish request, _, store =>
      ∀ plan, preparePublish platform request = .ok plan →
        Conflict platform keyPrefix allowed plan store
  | .verify _, _, _ => True

/-- What a run has achieved that returned. -/
def Achieved : StoreRequest → StoreResult → ObjectMap → Prop
  | .publish request, .published result, store =>
      ∀ plan, preparePublish platform request = .ok plan →
        Published platform plan request.now result store
  | .verify config, .verified result, store =>
      ∀ plan, prepareVerify config = .ok plan → VerifiedAt platform plan.commitKey result store
  | _, _, _ => False

variable {platform} {keyPrefix} {allowed}

theorem Published.mono {plan : PublishPlan} {now : String} {result : PublishResult}
    {store later : ObjectMap} (hgrown : Extends store later)
    (h : Published platform plan now result store) :
    Published platform plan now result later := by
  obtain ⟨⟨committedAt, hcommit⟩, hown, hobjects, hresult⟩ := h
  exact ⟨⟨committedAt, hgrown _ _ hcommit⟩, fun hnew => hgrown _ _ (hown hnew),
    hobjects.mono hgrown, hresult⟩

variable (hdigest : ∀ bytes, isSha256 (platform.sha256 bytes) = true)

include hdigest in
theorem keeps_publish {request : PublishRequest} (hallowed : allowed request)
    (hnormalized : normalizePrefix request.config.keyPrefix = .ok keyPrefix) {store : ObjectMap}
    (hinv : PublishedFrom platform keyPrefix allowed store) :
    KeepsIn (PublishedFrom platform keyPrefix allowed)
      (MayFail platform keyPrefix allowed (.publish request))
      (fun result later => ∀ plan, preparePublish platform request = .ok plan →
        Published platform plan request.now result later)
      (publish platform request) store := by
  have hprepare : KeepsIn (PublishedFrom platform keyPrefix allowed)
      (MayFail platform keyPrefix allowed (.publish request))
      (fun plan _ => preparePublish platform request = .ok plan)
      (checked (preparePublish platform request)) store := by
    apply keeps_checked
    · intro plan hok later _ _
      exact hok
    · intro text herror later _ _ plan hok
      rw [hok] at herror
      cases herror
  refine Program.Keeps.bind extends_growth hinv hprepare ?_
  intro plan first _ hfirstInv hok
  have hplan : Publication platform keyPrefix allowed plan := ⟨request, hallowed, hnormalized, hok⟩
  have hbad : Excuses platform keyPrefix allowed plan
      (MayFail platform keyPrefix allowed (.publish request)) := by
    intro error later hconflict other hother
    rw [hok, Except.ok.injEq] at hother
    exact hother ▸ hconflict
  refine (keeps_publishPlan hdigest hplan hbad hfirstInv).imp ?_
  intro result later hpublished other hother
  rw [hok, Except.ok.injEq] at hother
  exact hother ▸ hpublished

theorem keeps_verify (config : VerifyPublishedConfig) {store : ObjectMap}
    (hinv : PublishedFrom platform keyPrefix allowed store) :
    KeepsIn (PublishedFrom platform keyPrefix allowed) (fun _ _ => True)
      (fun result later => ∀ plan, prepareVerify config = .ok plan →
        VerifiedAt platform plan.commitKey result later)
      (verifyPublished platform config) store := by
  have hbad : Tolerant (fun (_ : ArchiveError) (_ : ObjectMap) => True) := fun _ _ => trivial
  cases hprepared : prepareVerify config with
  | error text =>
      rw [verifyPublished, hprepared]
      exact keeps_throw fun _ _ _ => trivial
  | ok verifyPlan =>
      refine (keeps_verifyPublished_sound hbad hprepared hinv).imp ?_
      intro result later hverified other hother
      cases hother
      exact hverified

include hdigest in
theorem keeps_serve {request : StoreRequest}
    (hallowed : ∀ publication, request = .publish publication → allowed publication)
    (hnormalized : normalizePrefix request.keyPrefix = .ok keyPrefix) {store : ObjectMap}
    (hinv : PublishedFrom platform keyPrefix allowed store) :
    KeepsIn (PublishedFrom platform keyPrefix allowed)
      (MayFail platform keyPrefix allowed request) (Achieved platform request)
      (serve platform request) store := by
  cases request with
  | publish request =>
      refine Program.Keeps.bind extends_growth hinv
        (keeps_publish hdigest (hallowed request rfl) hnormalized hinv) ?_
      intro result first _ _ hresult
      apply keeps_pure
      intro later hlater _ plan hok
      exact (hresult plan hok).mono hlater
  | verify config =>
      refine Program.Keeps.bind extends_growth hinv (keeps_verify config hinv) ?_
      intro result first _ _ hresult
      apply keeps_pure
      intro later hlater _ plan hok
      exact (hresult plan hok).mono hlater

end Promises

section Runs

variable {platform : Platform} {keyPrefix : String}
variable (hdigest : ∀ bytes, isSha256 (platform.sha256 bytes) = true)
variable {trace : List (Action StoreRequest)}

include hdigest in
theorem keeps_started (hunder : Under keyPrefix trace) (request : StoreRequest)
    (hstarted : Started trace request) (store : ObjectMap)
    (hinv : PublishedFrom platform keyPrefix (StartedPublish trace) store) :
    KeepsIn (PublishedFrom platform keyPrefix (StartedPublish trace))
      (MayFail platform keyPrefix (StartedPublish trace) request) (Achieved platform request)
      (serve platform request) store := by
  apply keeps_serve hdigest _ (hunder request hstarted) hinv
  rintro publication rfl
  exact hstarted

/-- The actions of a part of a trace start requests of the trace. -/
theorem starts_of_subset {first whole : List (Action StoreRequest)} (hpart : first ⊆ whole)
    (system : PublishSystem) :
    Machine.Along (System.apply (serve platform)) (System.Starts (Started whole)) system
      first := by
  apply Machine.along_of_forall
  intro later action haction
  cases action with
  | start run request => exact ⟨run, hpart haction⟩
  | step | land | lose => trivial

include hdigest in
theorem sound_part (hunder : Under keyPrefix trace) {first : List (Action StoreRequest)}
    (hpart : first ⊆ trace) :
    System.Sound (PublishedFrom platform keyPrefix (StartedPublish trace)) Extends
      (MayFail platform keyPrefix (StartedPublish trace)) (Achieved platform) (Started trace)
      (PublishSystem.after platform first) :=
  System.sound_run extends_growth (keeps_started hdigest hunder) publishedFrom_empty
    (starts_of_subset hpart _)

include hdigest in
theorem sound_after (hunder : Under keyPrefix trace) :
    System.Sound (PublishedFrom platform keyPrefix (StartedPublish trace)) Extends
      (MayFail platform keyPrefix (StartedPublish trace)) (Achieved platform) (Started trace)
      (PublishSystem.after platform trace) :=
  sound_part hdigest hunder (List.Subset.refl trace)

theorem after_append (trace more : List (Action StoreRequest)) :
    PublishSystem.after platform (trace ++ more) =
      Machine.run (System.apply (serve platform)) (PublishSystem.after platform trace) more :=
  Machine.run_append _ _ _

theorem after_grows (trace more : List (Action StoreRequest)) :
    Extends (PublishSystem.after platform trace).store
      (PublishSystem.after platform (trace ++ more)).store := by
  rw [after_append]
  exact System.run_grows extends_growth _ more

/-- Every COMMIT in the store is one that a started publication wrote, and its files stand
with their lengths, and with their digests where that publication verifies them. -/
def CommitsComplete (platform : Platform) (keyPrefix : String)
    (started : PublishRequest → Prop) (store : ObjectMap) : Prop :=
  ∀ kind id content, SafeComponent id → store (commitKeyOf keyPrefix kind id) = some content →
    ∃ request plan now, started request ∧ preparePublish platform request = .ok plan ∧
      plan.artifact.kind = kind ∧ plan.artifact.id = id ∧
      content = platform.commit.write (plan.commit now) ∧
      ∀ object ∈ plan.files, StandsAt platform request.config.verifyRemoteSha256 object store

include hdigest in
theorem commitsComplete_after (hunder : Under keyPrefix trace) :
    CommitsComplete platform keyPrefix (StartedPublish trace)
      (PublishSystem.after platform trace).store := by
  have hinv := (sound_after hdigest hunder).store
  intro kind id content hid hstored
  obtain ⟨plan, now, hplan, ⟨hkind, hsameId⟩, hcontent, _⟩ :=
    hinv.commitAt hdigest hid hstored
  obtain ⟨tree, manifest, names, hplanned⟩ := hplan.planned hdigest
  have hkey : plan.commitKey = commitKeyOf keyPrefix kind id := by
    rw [hplanned.commitKey, commitKeyOf_below hplanned.trimmed, hkind, hsameId]
  rw [← hkey] at hstored
  obtain ⟨other, otherNow, hother, hotherKey, hotherContent, hstand⟩ :=
    hinv.commit hdigest hplan hstored
  obtain ⟨otherTree, otherManifest, otherNames, hotherPlanned⟩ := hother.planned hdigest
  obtain ⟨hotherKind, hotherId⟩ := (hotherPlanned.same_of_commitKey hplanned).mp hotherKey
  obtain ⟨request, hstarted, _, hprepared⟩ := hother
  obtain ⟨_, _, _, _, _, hflag⟩ := preparePublish_ok hdigest hprepared
  refine ⟨request, other, otherNow, hstarted, hprepared, hotherKind.trans hkind,
    hotherId.trans hsameId, hotherContent, ?_⟩
  intro object hobject
  rw [← hflag]
  exact hstand object hobject

/-- Whatever publishers and verifiers run under a prefix: a visible COMMIT stands for all
its files, and no action changes what is stored. -/
theorem publishers_commit (platform : Platform) (keyPrefix : String)
    (hdigest : ∀ bytes, isSha256 (platform.sha256 bytes) = true)
    (trace : List (Action StoreRequest)) (hunder : Under keyPrefix trace) :
    CommitsComplete platform keyPrefix (StartedPublish trace)
        (PublishSystem.after platform trace).store ∧
      ∀ action, Extends (PublishSystem.after platform trace).store
        (PublishSystem.after platform (trace ++ [action])).store := by
  exact ⟨commitsComplete_after hdigest hunder, fun action => after_grows trace [action]⟩

/-! What publishers come to. -/

/-- How the publishers of a trace end. -/
structure PublishOutcome (platform : Platform) (keyPrefix : String)
    (started : PublishRequest → Prop) (system : PublishSystem) : Prop where
  /-- A publisher has published its artifact, or something of another artifact with the same
  kind and id stands in the store. -/
  ends : ∀ {n run request plan}, system.runs n = some run → run.request = .publish request →
    preparePublish platform request = .ok plan → run.program.Stopped →
    (∃ result, run.program = .ret (.published result) ∧
      Published platform plan request.now result system.store) ∨
    ((∃ error dropped, run.program = .fail error dropped) ∧
      Conflict platform keyPrefix started plan system.store)
  /-- Publishers of one kind and id that return have published one manifest and one set of
  objects. -/
  agree : ∀ {n m run other request otherRequest plan otherPlan result otherResult},
    system.runs n = some run → system.runs m = some other →
    run.request = .publish request → other.request = .publish otherRequest →
    preparePublish platform request = .ok plan →
    preparePublish platform otherRequest = .ok otherPlan →
    run.program = .ret (.published result) → other.program = .ret (.published otherResult) →
    plan.commitKey = otherPlan.commitKey → ∀ now, plan.commit now = otherPlan.commit now
  /-- A publisher of something else than what is committed fails. -/
  conflicts : ∀ {n run request plan commit}, system.runs n = some run →
    run.request = .publish request → preparePublish platform request = .ok plan →
    system.store plan.commitKey = some (platform.commit.write commit) →
    commit ≠ plan.commit commit.committedAtUtc → run.program.Stopped →
    ∃ error dropped, run.program = .fail error dropped

theorem stopped_cases {program : ObjectProgram StoreResult} (h : program.Stopped) :
    (∃ result, program = .ret result) ∨ ∃ error dropped, program = .fail error dropped := by
  cases program with
  | ret result => exact Or.inl ⟨result, rfl⟩
  | fail error dropped => exact Or.inr ⟨error, dropped, rfl⟩
  | call | pool => cases h

theorem commit_eq_of_stored {plan other : PublishPlan} {now otherNow : String}
    (h : plan.commit now = other.commit otherNow) (time : String) :
    plan.commit time = other.commit time := by
  obtain ⟨_, hkind, hid, _, hsha, hkey, hlineage, hobjects⟩ := ObjectCommit.ext_iff.mp h
  exact ObjectCommit.ext rfl hkind hid rfl hsha hkey hlineage hobjects

include hdigest in
theorem publishOutcome_after (hunder : Under keyPrefix trace) :
    PublishOutcome platform keyPrefix (StartedPublish trace)
      (PublishSystem.after platform trace) := by
  have hsound := sound_after hdigest hunder
  have hpublished : ∀ {n run request plan result},
      (PublishSystem.after platform trace).runs n = some run → run.request = .publish request →
      preparePublish platform request = .ok plan → run.program = .ret (.published result) →
      Published platform plan request.now result (PublishSystem.after platform trace).store := by
    intro n run request plan result hrun hrequest hok hret
    have hkeeps := hsound.keeps hrun
    rw [hret, hrequest] at hkeeps
    exact hkeeps _ (extends_growth.refl _) hsound.store plan hok
  have hends : ∀ {n run request plan},
      (PublishSystem.after platform trace).runs n = some run → run.request = .publish request →
      preparePublish platform request = .ok plan → run.program.Stopped →
      (∃ result, run.program = .ret (.published result) ∧ Published platform plan request.now
        result (PublishSystem.after platform trace).store) ∨
      ((∃ error dropped, run.program = .fail error dropped) ∧ Conflict platform keyPrefix
        (StartedPublish trace) plan (PublishSystem.after platform trace).store) := by
    intro n run request plan hrun hrequest hok hstopped
    have hkeeps := hsound.keeps hrun
    rcases stopped_cases hstopped with ⟨result, hret⟩ | ⟨error, dropped, hfail⟩
    · left
      cases result with
      | published result => exact ⟨result, hret, hpublished hrun hrequest hok hret⟩
      | verified result =>
          rw [hret, hrequest] at hkeeps
          exact absurd (hkeeps _ (extends_growth.refl _) hsound.store) not_false
    · right
      rw [hfail, hrequest] at hkeeps
      exact ⟨⟨error, dropped, hfail⟩,
        hkeeps.1 _ (extends_growth.refl _) hsound.store plan hok⟩
  refine ⟨hends, ?_, ?_⟩
  · intro n m run other request otherRequest plan otherPlan result otherResult hrun hother
      hrequest hotherRequest hok hotherOk hret hotherRet hkey
    obtain ⟨committedAt, hstored⟩ := (hpublished hrun hrequest hok hret).commit
    obtain ⟨otherAt, hotherStored⟩ := (hpublished hother hotherRequest hotherOk hotherRet).commit
    rw [hkey, hotherStored, Option.some.injEq] at hstored
    exact commit_eq_of_stored (platform.commit.write_injective hstored).symm
  · intro n run request plan commit hrun hrequest hok hstored hdiffers hstopped
    rcases hends hrun hrequest hok hstopped with ⟨result, _, hdone⟩ | ⟨hfail, _⟩
    · obtain ⟨committedAt, hown⟩ := hdone.commit
      rw [hstored, Option.some.injEq] at hown
      have hsame := platform.commit.write_injective hown
      rw [hsame] at hdiffers
      exact absurd rfl hdiffers
    · exact hfail

/-- Whatever publishers and verifiers run under a prefix: a run that is left alone ends,
and a publisher ends as its artifact and what stands in the store decide. -/
theorem publishers_agree (platform : Platform) (keyPrefix : String)
    (hdigest : ∀ bytes, isSha256 (platform.sha256 bytes) = true)
    (trace : List (Action StoreRequest)) (hunder : Under keyPrefix trace) :
    PublishOutcome platform keyPrefix (StartedPublish trace)
        (PublishSystem.after platform trace) ∧
      ∀ n request program,
        (PublishSystem.after platform trace).runs n = some ⟨request, program, false⟩ →
        ∃ choices : List Nat, ∃ final : ObjectProgram StoreResult, final.Stopped ∧
          (PublishSystem.after platform (trace ++ choices.map (Action.step n))).runs n =
            some ⟨request, final, false⟩ := by
  refine ⟨publishOutcome_after hdigest hunder, ?_⟩
  intro n request program hrun
  obtain ⟨choices, final, hstopped, hfinal⟩ :=
    @System.run_stops _ _ _ _ (serve platform) _ _ _ _ hrun
  refine ⟨choices, final, hstopped, ?_⟩
  rw [after_append]
  exact hfinal

/-! What a verifier comes to. -/

/-- The verifier of a COMMIT returns what the COMMIT says, unless a key is unsafe. -/
def Decides (key : String) (commit : ObjectCommit)
    (program : ObjectProgram StoreResult) : Prop :=
  (SafeKeys commit ∧ program = .ret (.verified (verifyPublishedResult commit key))) ∨
    (¬ SafeKeys commit ∧ ∃ error dropped, program = .fail error dropped)

theorem CommitStands.unique {allowed : PublishRequest → Prop} {key : String}
    {left right : ObjectCommit} {store : ObjectMap}
    (hleft : CommitStands platform keyPrefix allowed key left store)
    (hright : CommitStands platform keyPrefix allowed key right store) : left = right := by
  have hstored := hleft.stored
  rw [hright.stored, Option.some.injEq] at hstored
  exact (platform.commit.write_injective hstored).symm

theorem Accepted.mono {allowed : PublishRequest → Prop} {key : String}
    {result : VerifyPublishedResult} {store later : ObjectMap} (hgrown : Extends store later)
    (h : Accepted platform keyPrefix allowed key result store) :
    Accepted platform keyPrefix allowed key result later := by
  obtain ⟨commit, hstands, hsafe, hentries, hresult⟩ := h.stands
  exact ⟨commit, hstands.mono hgrown, hsafe,
    fun entry hentry => (hentries entry hentry).mono hgrown, hresult⟩

include hdigest in
theorem keeps_serve_verify {allowed : PublishRequest → Prop}
    (hfree : CollisionFree platform allowed) (hverify : AllVerify allowed)
    {config : VerifyPublishedConfig} {verifyPlan : VerifyPlan}
    (hnormalized : normalizePrefix config.keyPrefix = .ok keyPrefix)
    (hprepared : prepareVerify config = .ok verifyPlan) {store : ObjectMap} {content : Bytes}
    (hinv : PublishedFrom platform keyPrefix allowed store)
    (hvisible : store verifyPlan.commitKey = some content) :
    KeepsIn (PublishedFrom platform keyPrefix allowed)
      (fun _ later => Refused platform keyPrefix allowed verifyPlan.commitKey later)
      (fun result later => ∃ accepted, result = .verified accepted ∧
        Accepted platform keyPrefix allowed verifyPlan.commitKey accepted later)
      (serve platform (.verify config)) store := by
  have hkeeps := keeps_verifyPublished hdigest hfree hverify hnormalized hprepared
    (fun _ _ hrefused => hrefused : ExcusesRefusal platform keyPrefix allowed
      verifyPlan.commitKey fun _ later =>
        Refused platform keyPrefix allowed verifyPlan.commitKey later)
    (Or.inl ⟨content, hvisible⟩) hinv
  refine Program.Keeps.bind extends_growth hinv hkeeps ?_
  intro accepted first _ _ haccepted
  apply keeps_pure
  intro later hlater _
  exact ⟨accepted, rfl, haccepted.mono hlater⟩

/-- Where all publishers verify digests and manifests do not collide, a verifier that
starts when a COMMIT is visible accepts it, in every interleaving, unless it has an unsafe
key; and all that the COMMIT names stands. -/
theorem verifier_decides (platform : Platform) (keyPrefix : String)
    (hdigest : ∀ bytes, isSha256 (platform.sha256 bytes) = true)
    (first more whole : List (Action StoreRequest)) (n : Nat) (config : VerifyPublishedConfig)
    (verifyPlan : VerifyPlan) (content : Bytes)
    (hwhole : whole = first ++ .start n (.verify config) :: more)
    (hunder : Under keyPrefix whole) (hverify : AllVerify (StartedPublish whole))
    (hfree : CollisionFree platform (StartedPublish whole))
    (hprepared : prepareVerify config = .ok verifyPlan)
    (hnew : (PublishSystem.after platform first).runs n = none)
    (hvisible : (PublishSystem.after platform first).store verifyPlan.commitKey = some content) :
    ∃ commit run,
      (PublishSystem.after platform whole).store verifyPlan.commitKey =
        some (platform.commit.write commit) ∧
      (∀ entry ∈ commit.objects,
        EntryStands platform entry (PublishSystem.after platform whole).store) ∧
      (PublishSystem.after platform whole).runs n = some run ∧
      (run.program.Stopped → Decides verifyPlan.commitKey commit run.program) := by
  have hpart : first ⊆ whole := hwhole ▸ List.subset_append_left _ _
  have hrest : .start n (.verify config) :: more ⊆ whole :=
    hwhole ▸ List.subset_append_right _ _
  have hnormalized := hunder _ ⟨n, hrest List.mem_cons_self⟩
  obtain ⟨hid, _, hkey⟩ := prepareVerify_ok hnormalized hprepared
  have hsound := sound_part hdigest hunder hpart
  have hfinal := sound_after hdigest hunder
  have hafter : PublishSystem.after platform whole = Machine.run
      (System.apply (serve platform)) (PublishSystem.after platform first)
      (.start n (.verify config) :: more) := by rw [hwhole, after_append]
  have hgrown : Extends (PublishSystem.after platform first).store
      (PublishSystem.after platform whole).store := hwhole ▸ after_grows first _
  rw [hafter] at hfinal hgrown ⊢
  -- the COMMIT that is visible when the verifier starts
  have hstored := hvisible
  rw [hkey] at hstored
  obtain ⟨plan, now, _, _, _, hstands⟩ := hsound.store.commitAt hdigest hid hstored
  rw [← hkey] at hstands
  -- the promise of the verifier, from its start to the end
  have hstart : System.RunKeeps (PublishedFrom platform keyPrefix (StartedPublish whole)) Extends
      n (.verify config)
      (fun _ later => Refused platform keyPrefix (StartedPublish whole) verifyPlan.commitKey later)
      (fun result later => ∃ accepted, result = .verified accepted ∧
        Accepted platform keyPrefix (StartedPublish whole) verifyPlan.commitKey accepted later)
      (System.apply (serve platform) (PublishSystem.after platform first)
        (.start n (.verify config))) := by
    simp only [System.apply, hnew]
    exact ⟨_, System.setRun_self _ _ _, rfl,
      keeps_serve_verify hdigest hfree hverify hnormalized hprepared hsound.store hvisible⟩
  have hsteps : Machine.Along (System.apply (serve platform)) (System.Starts (Started whole))
      (PublishSystem.after platform first) (.start n (.verify config) :: more) :=
    starts_of_subset hrest _
  obtain ⟨run, hrun, _, hkeeps⟩ :=
    (hsound.apply extends_growth (keeps_started hdigest hunder) _ hsteps.1).runKeeps
      extends_growth (keeps_started hdigest hunder) hstart hsteps.2
  have hcommit := hstands.mono hgrown
  refine ⟨plan.commit now, run, hcommit.stored,
    hcommit.objects hdigest hverify hfinal.store, hrun, ?_⟩
  intro hstopped
  rcases stopped_cases hstopped with ⟨result, hret⟩ | ⟨error, dropped, hfail⟩
  · left
    rw [hret] at hkeeps
    obtain ⟨accepted, rfl, haccepted⟩ := hkeeps _ (extends_growth.refl _) hfinal.store
    obtain ⟨commit, hother, hsafe, _, hresult⟩ := haccepted.stands
    rw [← hcommit.unique hother] at hsafe hresult
    exact ⟨hsafe, by rw [hret, hresult]⟩
  · right
    rw [hfail] at hkeeps
    obtain ⟨commit, hother, hbadKey⟩ := hkeeps.1 _ (extends_growth.refl _) hfinal.store
    rw [← hcommit.unique hother] at hbadKey
    exact ⟨hbadKey, error, dropped, hfail⟩

end Runs

/-! One release under one prefix. -/

deriving instance Encodable for ObjectEntry
deriving instance Encodable for ObjectCommit

theorem isSha256_ofList (digits : List Char) : isSha256 (String.ofList digits) =
    ((Bytes.encode digits).length == 64 &&
      digits.all fun c => Decimal.isDigit c || ('a' ≤ c && c ≤ 'f')) := by
  rw [isSha256, textBytes, String.toList_ofList]

def partDigest : String := "37a680133bd09342f934afb8dd2c7d9e1b624da5f35e3a38adb103e37c055ed1"

def manifestDigest : String := "9084dfdaf128df4348e5b6ad0d5f832ff425fb9e80b366b19190fe16f9eacd4d"

def sumsDigest : String := "7dd2c6c698bb762e571a5df2155849e52bdbd06dccc8e48f9bf7c4c2e0f77f40"

def partContent : Bytes := textBytes "part"

/-- The fields of the manifest that the model reads. -/
def manifestContent : Bytes := textBytes
  ("\x7b\"schema_version\":\"chiptrace.jsonl-release.v1\",\"release_id\":\"release-one\"," ++
  "\"session_atomic\":true,\"session_split_count\":0,\"buyer_profile\":\"buyer-v7\"," ++
  "\"minimum_score\":90.0,\"parts\":[\x7b\"file\":\"data.jsonl.zst\",\"sha256\":\"" ++
  partDigest ++ "\",\"bytes\":4\x7d],\"reports\":[],\"validation_status\":\"pass\"\x7d")

def sumsContent : Bytes := textBytes
  (partDigest ++ "  data.jsonl.zst\n" ++ manifestDigest ++ "  manifest.json\n")

def releaseOne : ReleaseManifest where
  schemaVersion := releaseSchemaVersion
  releaseId := "release-one"
  sessionAtomic := true
  sessionSplitCount := 0
  buyerProfile := buyerV7
  minimumScore := 90
  parts := [⟨"data.jsonl.zst", partDigest, 4⟩]
  reports := []
  validationStatus := "pass"

def releaseSha256 (bytes : Bytes) : String :=
  if bytes = partContent then partDigest
  else if bytes = manifestContent then manifestDigest
  else if bytes = sumsContent then sumsDigest
  else "e3b0c44298fc1c149afbf4c8996fb92427ae41e4649b934ca495991b7852b855"

def stagedKey (name : String) : String :=
  "datasets/.staging/releases/release-one/" ++ manifestDigest ++ "/" ++ name

def releaseCommit : ObjectCommit where
  schemaVersion := objectCommitSchemaVersion
  artifactKind := "release"
  artifactId := "release-one"
  committedAtUtc := "2026-01-01T00:00:00Z"
  manifestSha256 := manifestDigest
  manifestKey := stagedKey "manifest.json"
  sourceReleaseManifestSha256 := none
  objects := [⟨stagedKey "SHA256SUMS", sumsDigest, 161⟩,
    ⟨stagedKey "data.jsonl.zst", partDigest, 4⟩,
    ⟨stagedKey "manifest.json", manifestDigest, 330⟩]

def releaseCommitText : Bytes := openBrace ++ textBytes
  "  \"schema_version\": \"chiptrace.object-commit.v1\",\n  \"artifact_kind\": \"release\"\n\x7d"

def releasePlatform : Platform where
  sha256 := releaseSha256
  releaseManifest bytes := if bytes = manifestContent then some releaseOne else none
  buyerManifest _ := none
  commit := .writing releaseCommit releaseCommitText (openBrace_nonzero _)
  auditRelease _ _ := .ok ()
  auditBuyerPackage _ _ := .ok ()

def releaseRequest : PublishRequest where
  config := {
    kind := .release
    keyPrefix := "/datasets/"
    fileConcurrency := 2
    multipartConcurrency := 4
    multipartChunkBytes := 8 * 1024 * 1024
    retryMaxTimes := 5
    verifyRemoteSha256 := true
  }
  tree := {
    files := ((Table.empty.insert ["data.jsonl.zst"] partContent).insert ["manifest.json"]
      manifestContent).insert ["SHA256SUMS"] sumsContent
    dirs := []
  }
  now := "2026-01-01T00:00:00Z"

def verifyRequest : VerifyPublishedConfig where
  artifactKind := .release
  artifactId := "release-one"
  keyPrefix := "datasets"
  fileConcurrency := 2
  retryMaxTimes := 5

/-- A publisher at work on its own, from its start to its end. -/
def publishRun : List (Action StoreRequest) :=
  .start 0 (.publish releaseRequest) :: List.replicate 19 (.step 0 0)

/-- The release is verified once it is published, while its publisher is lost. -/
def verifyRun : List (Action StoreRequest) :=
  publishRun ++ .start 1 (.verify verifyRequest) :: [.step 1 0, .lose 0, .step 1 0]

def releaseVerifyPlan : VerifyPlan :=
  ⟨2, "datasets", "datasets/releases/release-one/COMMIT.json"⟩

theorem releaseDigest_sha256 (bytes : Bytes) :
    isSha256 (releasePlatform.sha256 bytes) = true := by
  change isSha256 (releaseSha256 bytes) = true
  unfold releaseSha256
  split_ifs <;> exact (isSha256_ofList _).trans (by decide)

theorem publishRun_started {request : StoreRequest} (h : Started publishRun request) :
    request = .publish releaseRequest := by
  obtain ⟨run, hmem⟩ := h
  simp only [publishRun, List.mem_cons, List.mem_replicate, Action.start.injEq, reduceCtorEq,
    and_false, or_false] at hmem
  exact hmem.2

theorem verifyRun_started {request : StoreRequest} (h : Started verifyRun request) :
    request = .publish releaseRequest ∨ request = .verify verifyRequest := by
  obtain ⟨run, hmem⟩ := h
  rw [verifyRun, List.mem_append] at hmem
  rcases hmem with hmem | hmem
  · exact Or.inl (publishRun_started ⟨run, hmem⟩)
  · simp only [List.mem_cons, Action.start.injEq, reduceCtorEq, List.not_mem_nil,
      or_false] at hmem
    exact Or.inr hmem.2

theorem verifyRun_published {request : PublishRequest} (h : StartedPublish verifyRun request) :
    request = releaseRequest := by
  rcases verifyRun_started h with hsame | hsame
  · cases hsame
    rfl
  · cases hsame

theorem publishRun_under : Under "datasets" publishRun := by
  intro request hstarted
  rw [publishRun_started hstarted]
  decide +kernel

theorem verifyRun_under : Under "datasets" verifyRun := by
  intro request hstarted
  rcases verifyRun_started hstarted with rfl | rfl <;> decide +kernel

theorem publishRun_visible :
    ((PublishSystem.after releasePlatform publishRun).store
      releaseVerifyPlan.commitKey).isSome = true ∧
    ((PublishSystem.after releasePlatform publishRun).runs 1).isNone = true := by
  decide +kernel

/-- A release that is published on its own. -/
theorem publishRun_commits :
    CommitsComplete releasePlatform "datasets" (StartedPublish publishRun)
      (PublishSystem.after releasePlatform publishRun).store :=
  (publishers_commit releasePlatform "datasets" releaseDigest_sha256 publishRun
    publishRun_under).1

theorem publishRun_agree :
    PublishOutcome releasePlatform "datasets" (StartedPublish publishRun)
      (PublishSystem.after releasePlatform publishRun) :=
  (publishers_agree releasePlatform "datasets" releaseDigest_sha256 publishRun
    publishRun_under).1

/-- The verifier of a release that was published before it started. -/
theorem verifyRun_decides : ∃ commit run,
    (PublishSystem.after releasePlatform verifyRun).store releaseVerifyPlan.commitKey =
      some (releasePlatform.commit.write commit) ∧
    (∀ entry ∈ commit.objects,
      EntryStands releasePlatform entry (PublishSystem.after releasePlatform verifyRun).store) ∧
    (PublishSystem.after releasePlatform verifyRun).runs 1 = some run ∧
    (run.program.Stopped → Decides releaseVerifyPlan.commitKey commit run.program) := by
  obtain ⟨content, hvisible⟩ := Option.isSome_iff_exists.mp publishRun_visible.1
  have hnew := Option.isNone_iff_eq_none.mp publishRun_visible.2
  have hverify : AllVerify (StartedPublish verifyRun) := by
    intro request hstarted
    rw [verifyRun_published hstarted]
    rfl
  have hfree : CollisionFree releasePlatform (StartedPublish verifyRun) := by
    intro first second left right hfirst hsecond hleft hright _
    rw [verifyRun_published hfirst] at hleft
    rw [verifyRun_published hsecond, hleft, Option.some.injEq] at hright
    exact hright
  exact verifier_decides releasePlatform "datasets" releaseDigest_sha256 publishRun _ verifyRun 1
    verifyRequest releaseVerifyPlan content rfl verifyRun_under hverify hfree
    (by decide +kernel) hnew hvisible

end Publish

end ChipTrace
