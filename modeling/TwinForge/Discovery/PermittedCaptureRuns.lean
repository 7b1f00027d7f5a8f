import TwinForge.Discovery.PermittedCapture

/-! # What captures read

Every capture of an executor is bounded by its plan, reads only where it is permitted, and accounts
for all that it read; of all the captures of one executor, one at most reads anything.
-/

namespace TwinForge.Discovery

open List

variable {db : CharacterDatabase} {Evidence Metadata Failure : Type}

/-! ## Exchanges -/

/-- A log that went on from another with what the transport answered. -/
inductive Exchanged (transport : CipSoftwareInventoryTransport db Evidence Metadata Failure)
    (start : TransportLog db Evidence Metadata Failure) :
    TransportLog db Evidence Metadata Failure → Prop where
  | refl : Exchanged transport start start
  | capabilities {log} (earlier : Exchanged transport start log) :
      Exchanged transport start (log ++ [.capabilities (transport.capabilities log)])
  | page {log} (earlier : Exchanged transport start log) (cursor : Option Text) :
      Exchanged transport start
        (log ++ [.page cursor (transport.readInventoryPage log cursor)])
  | metadata {log} (earlier : Exchanged transport start log) :
      Exchanged transport start (log ++ [.metadata (transport.providerMetadata log)])

theorem Exchanged.trans {transport : CipSoftwareInventoryTransport db Evidence Metadata Failure}
    {start middle final : TransportLog db Evidence Metadata Failure}
    (first : Exchanged transport start middle) (second : Exchanged transport middle final) :
    Exchanged transport start final := by
  induction second with
  | refl => exact first
  | capabilities _ ih => exact .capabilities ih
  | page _ cursor ih => exact .page ih cursor
  | metadata _ ih => exact .metadata ih

def readCursors (log : TransportLog db Evidence Metadata Failure) : List (Option Text) :=
  log.filterMap fun
    | .page cursor _ => some cursor
    | _ => none

def readAnswers (log : TransportLog db Evidence Metadata Failure) :
    List (Except Failure (EvidencedInventoryPage db Evidence)) :=
  log.filterMap fun
    | .page _ answer => some answer
    | _ => none

variable (first second : TransportLog db Evidence Metadata Failure)

theorem readCursors_append :
    readCursors (first ++ second) = readCursors first ++ readCursors second :=
  filterMap_append

theorem readAnswers_append :
    readAnswers (first ++ second) = readAnswers first ++ readAnswers second :=
  filterMap_append

variable {before after : ExecutorState db Evidence Metadata Failure}

theorem callTransport_eq {Answer : Type}
    {ask : TransportLog db Evidence Metadata Failure → Except Failure Answer}
    {logged : Except Failure Answer → TransportExchange db Evidence Metadata Failure}
    {outcome : Except (ExecutorFailure Failure) Answer} :
    callTransport ask logged before = (outcome, after) ↔
      after = { before with log := before.log ++ [logged (ask before.log)] } ∧
        ((∃ answer, ask before.log = .ok answer ∧ outcome = .ok answer) ∨
          ∃ failure, ask before.log = .error failure ∧ outcome = .error (.transport failure)) := by
  have hrun : callTransport ask logged before =
      ((ask before.log).mapError .transport,
        { before with log := before.log ++ [logged (ask before.log)] }) := by
    rw [callTransport, Attempt.get_bind, Attempt.set_bind]
    cases ask before.log <;> rfl
  rw [hrun, Prod.mk.injEq, @eq_comm _ _ after, @eq_comm _ _ outcome, and_comm]
  refine and_congr_right fun _ => ?_
  cases ask before.log <;> simp [Except.mapError]

namespace PermittedSoftwareInventoryExecutor

variable (executor : PermittedSoftwareInventoryExecutor db Evidence Metadata Failure)

/-! ## Pages -/

/-- What reading pages within a budget exchanged and came to. -/
structure PagesRead (budget : Nat) (progress : InventoryProgress db Evidence)
    (outcome : Except (ExecutorFailure Failure) (InventoryProgress db Evidence))
    (exchanges : TransportLog db Evidence Metadata Failure) : Prop where
  bounded : (readCursors exchanges).length ≤ budget
  cursors : readCursors exchanges = [] ∨ ∃ later : List Text,
    readCursors exchanges = progress.cursor :: later.map some ∧ later.Nodup ∧
      ∀ cursor ∈ later, cursor ∉ progress.seenCursors
  accounted : ∀ final, outcome = .ok final → ∃ pages : List (EvidencedInventoryPage db Evidence),
    readAnswers exchanges = pages.map .ok ∧
      final.items = progress.items ++ pages.flatMap (·.items) ∧
      final.evidence = progress.evidence ++ pages.flatMap (·.objectEvidence) ∧
      final.requestsUsed = progress.requestsUsed + pages.length ∧
      ∀ page ∈ pages, ∀ item ∈ page.items, item.capability ∈ executor.plan.capabilities

variable {progress : InventoryProgress db Evidence}

variable {outcome : Except (ExecutorFailure Failure) (InventoryProgress db Evidence)}

variable {budget : Nat}

theorem pagesRead_last {answer : Except Failure (EvidencedInventoryPage db Evidence)}
    (haccounted : ∀ final, outcome = .ok final → ∃ page, answer = .ok page ∧
      final = progress.extend page ∧
        ∀ item ∈ page.items, item.capability ∈ executor.plan.capabilities) :
    executor.PagesRead (budget + 1) progress outcome
      ([.page progress.cursor answer] : TransportLog db Evidence Metadata Failure) where
  bounded := by
    show 1 ≤ budget + 1
    omega
  cursors := .inr ⟨[], rfl, nodup_nil, by simp⟩
  accounted := by
    intro final hfinal
    obtain ⟨page, rfl, rfl, hrequested⟩ := haccounted final hfinal
    refine ⟨[page], rfl, ?_, ?_, rfl, by simpa using hrequested⟩
    · simp [InventoryProgress.extend]
    · simp [InventoryProgress.extend]

theorem pagesRead_failed (failure : ExecutorFailure Failure)
    (answer : Except Failure (EvidencedInventoryPage db Evidence)) :
    executor.PagesRead (budget + 1) progress (.error failure)
      ([.page progress.cursor answer] : TransportLog db Evidence Metadata Failure) := by
  apply pagesRead_last
  intro final hfinal
  cases hfinal

theorem pagesRead_cons {page : EvidencedInventoryPage db Evidence} {cursor : Text}
    {exchanges : TransportLog db Evidence Metadata Failure}
    (hrequested : ∀ item ∈ page.items, item.capability ∈ executor.plan.capabilities)
    (hfresh : cursor ∉ progress.seenCursors)
    (hlater : executor.PagesRead budget
      { progress.extend page with
        cursor := some cursor
        seenCursors := progress.seenCursors ++ [cursor] } outcome exchanges) :
    executor.PagesRead (budget + 1) progress outcome
      (.page progress.cursor (.ok page) :: exchanges) where
  bounded := by
    have hbound := hlater.bounded
    show (readCursors exchanges).length + 1 ≤ budget + 1
    omega
  cursors := by
    right
    show ∃ later : List Text, progress.cursor :: readCursors exchanges = _ ∧ _
    obtain hnone | ⟨later, hcursors, hnodup, hunseen⟩ := hlater.cursors
    · exact ⟨[], by rw [hnone, map_nil], nodup_nil, by simp⟩
    · have hnew : cursor ∉ later := by
        intro hmember
        exact hunseen cursor hmember (by simp)
      have hall : ∀ other ∈ cursor :: later, other ∉ progress.seenCursors := by
        intro other hother hseen
        cases mem_cons.mp hother with
        | inl hsame => exact hfresh (hsame ▸ hseen)
        | inr hmember => exact hunseen other hmember (mem_append_left _ hseen)
      exact ⟨cursor :: later, by rw [hcursors, map_cons],
        nodup_cons.mpr ⟨hnew, hnodup⟩, hall⟩
  accounted := by
    intro final hfinal
    obtain ⟨pages, hanswers, hitems, hevidence, hused, hpages⟩ := hlater.accounted final hfinal
    refine ⟨page :: pages, ?_, ?_, ?_, ?_, forall_mem_cons.mpr ⟨hrequested, hpages⟩⟩
    · show Except.ok page :: readAnswers exchanges = _
      rw [hanswers, map_cons]
    · rw [hitems, flatMap_cons]
      exact append_assoc ..
    · rw [hevidence, flatMap_cons]
      exact append_assoc ..
    · rw [hused, length_cons]
      show progress.requestsUsed + 1 + pages.length = _
      omega

theorem readPages_spec (h : executor.readPages budget progress before = (outcome, after)) :
    after.executed = before.executed ∧
      Exchanged executor.transport before.log after.log ∧
      ∃ exchanges, after.log = before.log ++ exchanges ∧
        executor.PagesRead budget progress outcome exchanges := by
  induction budget generalizing progress before with
  | zero =>
    obtain ⟨rfl, rfl⟩ := Attempt.fail_eq.mp h
    refine ⟨rfl, .refl, [], by simp, ⟨le_rfl, .inl rfl, ?_⟩⟩
    intro final hfinal
    cases hfinal
  | succ budget ih =>
    have hasked : Exchanged executor.transport before.log (before.log ++
        [.page progress.cursor (executor.transport.readInventoryPage before.log progress.cursor)]) :=
      .page .refl progress.cursor
    rw [readPages, Attempt.bind_eq] at h
    obtain ⟨page, middle, hpage, h⟩ | ⟨failure, hfailed, rfl⟩ := h
    · obtain ⟨rfl, ⟨answer, hanswer, hok⟩ | ⟨failure, _, hfailure⟩⟩ := callTransport_eq.mp hpage
      · cases hok
        rw [hanswer] at hasked h
        rw [Attempt.bind_eq] at h
        obtain ⟨_, _, hrefuse, h⟩ | ⟨failure, hrefused, rfl⟩ := h
        · obtain ⟨rfl, ⟨hrequested, _⟩ | ⟨_, hrefused⟩⟩ := Attempt.refuse_eq.mp hrefuse
          · push Not at hrequested
            cases hnext : page.nextCursor with
            | none =>
              simp only [hnext] at h
              obtain ⟨rfl, rfl⟩ := Attempt.pure_eq.mp h
              refine ⟨rfl, hasked, _, rfl, executor.pagesRead_last ?_⟩
              intro final hfinal
              cases hfinal
              exact ⟨page, rfl, rfl, hrequested⟩
            | some cursor =>
              simp only [hnext] at h
              rw [Attempt.bind_eq] at h
              obtain ⟨_, _, hfresh, h⟩ | ⟨failure, hrepeated, rfl⟩ := h
              · obtain ⟨rfl, ⟨hunseen, _⟩ | ⟨_, hrepeated⟩⟩ := Attempt.refuse_eq.mp hfresh
                · obtain ⟨hexecuted, hexchanged, exchanges, hlog, hread⟩ := ih h
                  refine ⟨hexecuted, hasked.trans hexchanged, _, ?_,
                    executor.pagesRead_cons hrequested hunseen hread⟩
                  rw [hlog]
                  exact append_assoc ..
                · cases hrepeated
              · obtain ⟨rfl, _⟩ := Attempt.refuse_eq.mp hrepeated
                exact ⟨rfl, hasked, _, rfl, executor.pagesRead_failed _ _⟩
          · cases hrefused
        · obtain ⟨rfl, _⟩ := Attempt.refuse_eq.mp hrefused
          exact ⟨rfl, hasked, _, rfl, executor.pagesRead_failed _ _⟩
      · cases hfailure
    · obtain ⟨rfl, _⟩ := callTransport_eq.mp hfailed
      exact ⟨rfl, hasked, _, rfl, executor.pagesRead_failed _ _⟩

/-! ## Captures -/

/-- The permit covers the route of the plan, and the transport supports what the plan requests. -/
structure Permitted (log : TransportLog db Evidence Metadata Failure) : Prop where
  covered : ∃ route ∈ executor.plan.route, ∃ permit ∈ executor.permit,
    permit.authorizationReference = executor.plan.authorizationReference ∧
      route.key ∈ permit.allowedRouteKeys
  supported : ∃ supported, executor.transport.capabilities log = .ok supported ∧
    ∀ capability ∈ executor.plan.capabilities, capability ∈ supported

theorem permit_covers {permit : Option (ConfirmedPermit db)} {reference key : Text}
    (h : validateRoutedExecution (permit.map ConfirmedPermit.toRoutedExecutionPermit) reference
      [key] = .ok ()) :
    ∃ confirmed ∈ permit, confirmed.authorizationReference = reference ∧
      key ∈ confirmed.allowedRouteKeys := by
  cases permit with
  | none => cases h
  | some confirmed =>
    obtain ⟨hreference, hkeys⟩ := validated_keys.mp h
    exact ⟨confirmed, rfl, hreference, hkeys key (mem_singleton_self key)⟩

theorem preflight_spec {outcome : Except (ExecutorFailure Failure) (CipRouteDeclaration db)}
    (h : executor.preflight before = (outcome, after)) :
    after.executed = before.executed ∧
      Exchanged executor.transport before.log after.log ∧
      (∃ exchanges, after.log = before.log ++ exchanges ∧ readCursors exchanges = [] ∧
        readAnswers exchanges = []) ∧
      ∀ route, outcome = .ok route → before.executed = false ∧
        executor.Permitted before.log := by
  have hasked : Exchanged executor.transport before.log
      (before.log ++ [.capabilities (executor.transport.capabilities before.log)]) :=
    .capabilities .refl
  unfold preflight at h
  cases hroute : executor.plan.route with
  | none =>
    simp only [hroute] at h
    obtain ⟨rfl, rfl⟩ := Attempt.fail_eq.mp h
    exact ⟨rfl, .refl, ⟨[], by simp, rfl, rfl⟩, by simp⟩
  | some route =>
    simp only [hroute] at h
    cases hpermit : validateRoutedExecution
        (executor.permit.map ConfirmedPermit.toRoutedExecutionPermit)
        executor.plan.authorizationReference [route.key] with
    | error error =>
      simp only [hpermit] at h
      obtain ⟨rfl, rfl⟩ := Attempt.fail_eq.mp h
      exact ⟨rfl, .refl, ⟨[], by simp, rfl, rfl⟩, by simp⟩
    | ok _ =>
      simp only [hpermit] at h
      rw [Attempt.bind_eq] at h
      obtain ⟨supported, middle, hsupported, h⟩ | ⟨failure, hfailed, rfl⟩ := h
      · obtain ⟨rfl, ⟨answer, hanswer, hok⟩ | ⟨_, _, hfailure⟩⟩ := callTransport_eq.mp hsupported
        · cases hok
          rw [Attempt.bind_eq] at h
          obtain ⟨_, _, hall, h⟩ | ⟨failure, hmissing, rfl⟩ := h
          · obtain ⟨rfl, ⟨hnone, _⟩ | ⟨_, hrefused⟩⟩ := Attempt.refuse_eq.mp hall
            · have hcovered : ∀ capability ∈ executor.plan.capabilities,
                  capability ∈ supported := by
                simpa using hnone
              have hpermitted : executor.Permitted before.log :=
                ⟨⟨route, hroute, permit_covers hpermit⟩, supported, hanswer, hcovered⟩
              have hfinal : after = { before with
                    log := before.log ++
                      [.capabilities (executor.transport.capabilities before.log)] } ∧
                  ∀ route, outcome = .ok route → before.executed = false := by
                rw [Attempt.get_bind, Attempt.bind_eq] at h
                obtain ⟨_, _, hfirst, h⟩ | ⟨failure, hexecuted, rfl⟩ := h
                · obtain ⟨rfl, ⟨hfalse, _⟩ | ⟨_, hrefused⟩⟩ := Attempt.refuse_eq.mp hfirst
                  · obtain ⟨rfl, rfl⟩ := Attempt.pure_eq.mp h
                    exact ⟨rfl, fun _ _ => Bool.eq_false_iff.mpr hfalse⟩
                  · cases hrefused
                · exact ⟨(Attempt.refuse_eq.mp hexecuted).1, by simp⟩
              obtain ⟨rfl, honce⟩ := hfinal
              exact ⟨rfl, hasked, ⟨_, rfl, rfl, rfl⟩,
                fun route hroute => ⟨honce route hroute, hpermitted⟩⟩
            · cases hrefused
          · obtain ⟨rfl, _⟩ := Attempt.refuse_eq.mp hmissing
            exact ⟨rfl, hasked, ⟨_, rfl, rfl, rfl⟩, by simp⟩
        · cases hfailure
      · obtain ⟨rfl, _⟩ := callTransport_eq.mp hfailed
        exact ⟨rfl, hasked, ⟨_, rfl, rfl, rfl⟩, by simp⟩

def CaptureCall.exchanges (call : CaptureCall db Evidence Metadata Failure) :
    TransportLog db Evidence Metadata Failure :=
  call.after.log.drop call.before.log.length

/-- An observation holds all items and all evidence of the pages that were read, and nothing that
was not requested. -/
def Accounts (exchanges : TransportLog db Evidence Metadata Failure)
    (observation : CapturedInventory db Evidence Metadata) : Prop :=
  ∃ pages : List (EvidencedInventoryPage db Evidence),
    readAnswers exchanges = pages.map .ok ∧
      observation.items.Perm (pages.flatMap (·.items)) ∧
      observation.objectEvidence = pages.flatMap (·.objectEvidence) ∧
      observation.requestsUsed = pages.length ∧
      ∀ item ∈ observation.items, item.capability ∈ executor.plan.capabilities

/-- A capture is bounded by its plan and its permit. -/
structure Bounded (call : CaptureCall db Evidence Metadata Failure) : Prop where
  exchanged : Exchanged executor.transport call.before.log call.after.log
  bounded : (readCursors call.exchanges).length ≤ executor.plan.maximumRequests
  fresh : ((readCursors call.exchanges).filterMap id).Nodup
  permitted : readCursors call.exchanges ≠ [] → executor.Permitted call.before.log
  accounted : ∀ observation, call.outcome = .ok observation →
    executor.Accounts call.exchanges observation

/-- A capture reads only if none was executed before, and then it counts as executed. -/
structure OneShot (call : CaptureCall db Evidence Metadata Failure) : Prop where
  kept : call.before.executed = true → call.after.executed = true
  once : readCursors call.exchanges ≠ [] →
    call.before.executed = false ∧ call.after.executed = true

theorem unread_spec {failure : ExecutorFailure Failure}
    {exchanges : TransportLog db Evidence Metadata Failure}
    (hexecuted : after.executed = before.executed)
    (hexchanged : Exchanged executor.transport before.log after.log)
    (hlog : after.log = before.log ++ exchanges) (hunread : readCursors exchanges = []) :
    executor.Bounded ⟨before, .error failure, after⟩ ∧
      OneShot (⟨before, .error failure, after⟩ : CaptureCall db Evidence Metadata Failure) := by
  have hcall : CaptureCall.exchanges (⟨before, .error failure, after⟩ :
      CaptureCall db Evidence Metadata Failure) = exchanges := by
    show after.log.drop before.log.length = exchanges
    rw [hlog, drop_left]
  constructor
  · exact {
      exchanged := hexchanged
      bounded := by simp [hcall, hunread]
      fresh := by simp [hcall, hunread]
      permitted := by simp [hcall, hunread]
      accounted := by simp }
  · exact {
      kept := fun hbefore => hexecuted.trans hbefore
      once := by simp [hcall, hunread] }

variable {observation : CapturedInventory db Evidence Metadata}

theorem observe_ok {route : CipRouteDeclaration db} {permit : ConfirmedPermit db}
    {capturedAt : DateTime} {providerMetadata : Metadata}
    (h : (executor.observe route permit capturedAt providerMetadata progress :
      Except (ExecutorFailure Failure) _) = .ok observation) :
    observation.items = sortedBy compareItems progress.items ∧
      observation.objectEvidence = progress.evidence ∧
      observation.requestsUsed = progress.requestsUsed := by
  simp only [observe, Guards.bind_eq_ok, Guards.refuse_eq_ok, Guards.exists_unit] at h
  obtain ⟨_, _, _, _, _, h⟩ := h
  split at h
  · obtain ⟨_, _, h⟩ := Guards.bind_eq_ok.mp h
    cases h
    exact ⟨rfl, rfl, rfl⟩
  · cases h

theorem accounts_observed {exchanges : TransportLog db Evidence Metadata Failure}
    (hread : executor.PagesRead budget {} (.ok progress) exchanges)
    (hitems : observation.items = sortedBy compareItems progress.items)
    (hevidence : observation.objectEvidence = progress.evidence)
    (hused : observation.requestsUsed = progress.requestsUsed) :
    executor.Accounts exchanges observation := by
  obtain ⟨pages, hanswers, hread, hcollected, hcount, hrequested⟩ := hread.accounted progress rfl
  have hperm : observation.items.Perm (pages.flatMap (·.items)) := by
    rw [hitems, hread]
    exact sortedBy_perm compareItems _
  refine ⟨pages, hanswers, hperm, ?_, ?_, ?_⟩
  · rw [hevidence, hcollected]
    rfl
  · rw [hused, hcount]
    show 0 + pages.length = _
    omega
  · intro item hitem
    obtain ⟨page, hpage, hmember⟩ := mem_flatMap.mp (hperm.mem_iff.mp hitem)
    exact hrequested page hpage item hmember

def Pageless (log : TransportLog db Evidence Metadata Failure) : Prop :=
  readCursors log = [] ∧ readAnswers log = []

variable {outcome : Except (ExecutorFailure Failure) (CapturedInventory db Evidence Metadata)}

theorem read_spec {reading : Except (ExecutorFailure Failure) (InventoryProgress db Evidence)}
    {asked exchanges closing : TransportLog db Evidence Metadata Failure}
    (hbefore : before.executed = false) (hpermitted : executor.Permitted before.log)
    (hafter : after.executed = true)
    (hexchanged : Exchanged executor.transport before.log after.log)
    (hlog : after.log = before.log ++ (asked ++ (exchanges ++ closing))) (hasked : Pageless asked)
    (hclosing : Pageless closing)
    (hread : executor.PagesRead executor.plan.maximumRequests {} reading exchanges)
    (haccounted : ∀ observation, outcome = .ok observation →
      executor.Accounts exchanges observation) :
    executor.Bounded ⟨before, outcome, after⟩ ∧
      OneShot (⟨before, outcome, after⟩ : CaptureCall db Evidence Metadata Failure) := by
  have hcall : CaptureCall.exchanges (⟨before, outcome, after⟩ :
      CaptureCall db Evidence Metadata Failure) = asked ++ (exchanges ++ closing) := by
    show after.log.drop before.log.length = _
    rw [hlog, drop_left]
  have hcursors : readCursors (asked ++ (exchanges ++ closing)) = readCursors exchanges := by
    rw [readCursors_append, readCursors_append, hasked.1, hclosing.1, nil_append,
      append_nil]
  have hanswers : readAnswers (asked ++ (exchanges ++ closing)) = readAnswers exchanges := by
    rw [readAnswers_append, readAnswers_append, hasked.2, hclosing.2, nil_append,
      append_nil]
  constructor
  · exact {
      exchanged := hexchanged
      bounded := by
        rw [hcall, hcursors]
        exact hread.bounded
      fresh := by
        rw [hcall, hcursors]
        obtain hnone | ⟨later, hlater, hnodup, _⟩ := hread.cursors
        · simp [hnone]
        · rw [hlater]
          show ((none :: later.map some).filterMap id).Nodup
          simpa [filterMap_map] using hnodup
      permitted := fun _ => hpermitted
      accounted := by
        intro observation hobservation
        unfold Accounts
        rw [hcall, hanswers]
        exact haccounted observation hobservation }
  · exact {
      kept := fun _ => hafter
      once := fun _ => ⟨hbefore, hafter⟩ }

theorem capture_spec {capturedAt : DateTime}
    (h : executor.capture capturedAt before = (outcome, after)) :
    executor.Bounded ⟨before, outcome, after⟩ ∧
      OneShot (⟨before, outcome, after⟩ : CaptureCall db Evidence Metadata Failure) := by
  unfold capture at h
  rw [Attempt.bind_eq] at h
  obtain ⟨_, _, haware, h⟩ | ⟨failure, hnaive, rfl⟩ := h
  · obtain ⟨hunchanged, _⟩ := Attempt.refuse_eq.mp haware
    rw [hunchanged, Attempt.bind_eq] at h
    obtain ⟨route, middle, hpreflight, h⟩ | ⟨failure, hpreflight, rfl⟩ := h
    · obtain ⟨hkept, hexchanged, ⟨asked, hlog, hasked⟩, hpassed⟩ :=
        executor.preflight_spec hpreflight
      obtain ⟨hbefore, hpermitted⟩ := hpassed route rfl
      cases hpermit : executor.permit with
      | none =>
        simp only [hpermit] at h
        obtain ⟨rfl, rfl⟩ := Attempt.fail_eq.mp h
        exact executor.unread_spec hkept hexchanged hlog hasked.1
      | some permit =>
        simp only [hpermit] at h
        rw [Attempt.get_bind, Attempt.set_bind, Attempt.bind_eq] at h
        obtain ⟨progress, last, hpages, h⟩ | ⟨failure, hpages, rfl⟩ := h
        · obtain ⟨hexecuted, hfollowed, exchanges, hread, hspec⟩ :=
            executor.readPages_spec hpages
          have hclosed : ∀ answer, last.log ++ [.metadata answer] =
              before.log ++ (asked ++ (exchanges ++ [.metadata answer])) := by
            intro answer
            rw [hread, hlog, append_assoc, append_assoc]
          have hmetadata := Exchanged.metadata (hexchanged.trans hfollowed)
          have hafter : ({ last with log := last.log ++
              [.metadata (executor.transport.providerMetadata last.log)] } :
                ExecutorState db Evidence Metadata Failure).executed = true := hexecuted
          rw [Attempt.bind_eq] at h
          obtain ⟨metadata, closed, hanswer, h⟩ | ⟨failure, hfailed, rfl⟩ := h
          · obtain ⟨rfl, _⟩ := callTransport_eq.mp hanswer
            obtain ⟨houtcome, hsame⟩ := Prod.mk.inj h
            rw [← hsame]
            apply executor.read_spec hbefore hpermitted hafter hmetadata (hclosed _) hasked
              ⟨rfl, rfl⟩ hspec
            intro observation hobservation
            obtain ⟨hitems, hevidence, hused⟩ :=
              executor.observe_ok (houtcome.trans hobservation)
            exact executor.accounts_observed hspec hitems hevidence hused
          · obtain ⟨rfl, _⟩ := callTransport_eq.mp hfailed
            exact executor.read_spec hbefore hpermitted hafter hmetadata (hclosed _) hasked
              ⟨rfl, rfl⟩ hspec (by simp)
        · obtain ⟨hexecuted, hfollowed, exchanges, hread, hspec⟩ :=
            executor.readPages_spec hpages
          have hended : after.log = before.log ++ (asked ++ (exchanges ++ [])) := by
            rw [hread, hlog, append_nil, append_assoc]
          exact executor.read_spec hbefore hpermitted hexecuted (hexchanged.trans hfollowed)
            hended hasked ⟨rfl, rfl⟩ hspec (by simp)
    · obtain ⟨hkept, hexchanged, ⟨asked, hlog, hasked⟩, _⟩ := executor.preflight_spec hpreflight
      exact executor.unread_spec hkept hexchanged hlog hasked.1
  · obtain ⟨rfl, _⟩ := Attempt.refuse_eq.mp hnaive
    exact executor.unread_spec rfl .refl (append_nil _).symm rfl

theorem captures_executed (calls : List DateTime)
    {before : ExecutorState db Evidence Metadata Failure} (hbefore : before.executed = true) :
    ∀ call ∈ executor.captures calls before, readCursors call.exchanges = [] := by
  induction calls generalizing before with
  | nil => simp [captures]
  | cons capturedAt calls ih =>
    obtain ⟨_, hshot⟩ := executor.capture_spec (Prod.eta (executor.capture capturedAt before)).symm
    rw [captures, forall_mem_cons]
    constructor
    · by_contra hread
      have hunused := (hshot.once hread).1
      rw [hbefore] at hunused
      cases hunused
    · exact ih (hshot.kept hbefore)

/-- Captures of one executor, whatever its transport answers: each is bounded by the plan and the
permit and accounts for what it read, and at most one reads at all. -/
theorem captures_bounded (calls : List DateTime)
    (start : ExecutorState db Evidence Metadata Failure) :
    (∀ call ∈ executor.captures calls start, executor.Bounded call) ∧
      ((executor.captures calls start).filter fun call =>
        (readCursors call.exchanges).length ≠ 0).length ≤ 1 := by
  induction calls generalizing start with
  | nil => simp [captures]
  | cons capturedAt calls ih =>
    obtain ⟨hbounded, hshot⟩ :=
      executor.capture_spec (Prod.eta (executor.capture capturedAt start)).symm
    obtain ⟨hlater, hcount⟩ := ih (executor.capture capturedAt start).2
    rw [captures, forall_mem_cons, filter_cons]
    constructor
    · exact ⟨hbounded, hlater⟩
    · split
      · next hread =>
        have hnone : (executor.captures calls (executor.capture capturedAt start).2).filter
            (fun call => (readCursors call.exchanges).length ≠ 0) = [] := by
          rw [filter_eq_nil_iff]
          intro call hcall
          have hread := hshot.once (by simpa using hread)
          simp [executor.captures_executed calls hread.2 call hcall]
        rw [hnone]
        simp
      · exact hcount

end PermittedSoftwareInventoryExecutor

end TwinForge.Discovery
