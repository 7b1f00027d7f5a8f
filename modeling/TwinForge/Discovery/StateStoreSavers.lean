import TwinForge.Discovery.StateStoreRuns

/-! # Several savers of one state file

Loading and checking is one step of a save, replacing the file another, and no lock is
held between them. As long as no other replacement comes between the two steps of a save,
every revision is stored once and nothing that was on disk is lost; an interleaving that
breaks into a save loses an update.
-/

namespace TwinForge.Discovery

open Guards Json Scans

/-- A save that has checked its state and not yet replaced the file. -/
structure PendingSave where
  lifecycle : IdentityLifecycleState
  promotions : CorePromotionResult
  expectedRevision : Int
  next : PersistedDiscoveryState
  /-- How many replacements there had been when the document was loaded. -/
  checkedAt : Nat

/-- The file between the steps of its savers, and what their saves have returned. -/
structure SharedFile (Saver : Type) where
  content : Option Text
  replacements : Nat
  pending : Saver → Option PendingSave
  /-- The new revisions returned so far, with the revisions that were expected. -/
  returned : List (Int × PersistedDiscoveryState)

inductive SaverStep (Saver : Type) where
  | check (saver : Saver) (lifecycle : IdentityLifecycleState) (promotions : CorePromotionResult)
      (expectedRevision : Int)
  | replace (saver : Saver)

namespace SharedFile

variable {Saver : Type}

def opened (content : Option Text) : SharedFile Saver where
  content
  replacements := 0
  pending _ := none
  returned := []

/-- What a saver is about to do after its check. -/
def checked (coercions : Coercions) (file : SharedFile Saver)
    (lifecycle : IdentityLifecycleState) (promotions : CorePromotionResult)
    (expectedRevision : Int) : Option PendingSave :=
  match planSave coercions true file.content lifecycle promotions expectedRevision with
  | .ok (.replace next) =>
    some { lifecycle, promotions, expectedRevision, next, checkedAt := file.replacements }
  | _ => none

def perform [DecidableEq Saver] (coercions : Coercions) (file : SharedFile Saver) :
    SaverStep Saver → SharedFile Saver
  | .check saver lifecycle promotions expectedRevision =>
    { file with pending := fun other =>
        if other = saver then file.checked coercions lifecycle promotions expectedRevision
        else file.pending other }
  | .replace saver =>
    match file.pending saver with
    | none => file
    | some save =>
      { content := some (payload save.next)
        replacements := file.replacements + 1
        pending := fun other => if other = saver then none else file.pending other
        returned := file.returned ++ [(save.expectedRevision, save.next)] }

/-- A step that does not replace a document other than the one that was checked. -/
def Undisturbed (file : SharedFile Saver) : SaverStep Saver → Prop
  | .check .. => True
  | .replace saver => ∀ save, file.pending saver = some save → save.checkedAt = file.replacements

/-- What holds of a file whose savers were never disturbed. -/
structure Kept (coercions : Coercions) (file : SharedFile Saver) : Prop where
  bounded : ∀ saver save, file.pending saver = some save → save.checkedAt ≤ file.replacements
  pending : ∀ saver save, file.pending saver = some save → save.checkedAt = file.replacements →
    ∃ current, Planned coercions file.content save.lifecycle save.promotions save.expectedRevision
      current ∧ save.next = ⟨current.revision + 1, save.lifecycle, save.promotions⟩
  returned : ∀ entry ∈ file.returned, ∃ state, load coercions true file.content = .ok state ∧
    entry.1 < state.revision
  distinct : (file.returned.map Prod.fst).Nodup

theorem kept_opened (coercions : Coercions) (content : Option Text) :
    Kept coercions (opened content : SharedFile Saver) where
  bounded _ _ h := nomatch h
  pending _ _ h := nomatch h
  returned _ h := absurd h List.not_mem_nil
  distinct := List.nodup_nil

theorem checked_checkedAt {coercions : Coercions} {file : SharedFile Saver}
    {lifecycle : IdentityLifecycleState} {promotions : CorePromotionResult}
    {expectedRevision : Int} {save : PendingSave}
    (h : file.checked coercions lifecycle promotions expectedRevision = some save) :
    save.checkedAt = file.replacements := by
  unfold checked at h
  split at h
  · rw [← Option.some.inj h]
  · cases h

theorem perform_contains [DecidableEq Saver] {coercions : Coercions}
    {file : SharedFile Saver} {step : SaverStep Saver} (hfile : Kept coercions file) (hstep : Undisturbed file step)
    {earlier : PersistedDiscoveryState} (h : load coercions true file.content = .ok earlier) :
    ∃ later, load coercions true (file.perform coercions step).content = .ok later ∧
      Keeps earlier later := by
  cases step with
  | check saver lifecycle promotions expectedRevision => exact ⟨earlier, h, .refl earlier⟩
  | replace saver =>
    cases hsave : file.pending saver with
    | none =>
      simp only [perform, hsave]
      exact ⟨earlier, h, .refl earlier⟩
    | some save =>
      have ⟨current, hplanned, hnext⟩ := hfile.pending saver save hsave (hstep save hsave)
      have hsame : current = earlier := Except.ok.inj (hplanned.loaded.symm.trans h)
      subst hsame
      simp only [perform, hsave, hnext]
      exact ⟨_, hplanned.loadable, hplanned.keeps⟩

section

variable {coercions : Coercions} (hcoercions : Rereads coercions) {file : SharedFile Saver}
  {step : SaverStep Saver}
include hcoercions

theorem checked_planned {lifecycle : IdentityLifecycleState} {promotions : CorePromotionResult}
    {expectedRevision : Int} {save : PendingSave}
    (h : file.checked coercions lifecycle promotions expectedRevision = some save) :
    ∃ current, Planned coercions file.content save.lifecycle save.promotions save.expectedRevision
      current ∧ save.next = ⟨current.revision + 1, save.lifecycle, save.promotions⟩ := by
  unfold checked at h
  cases hplan : planSave coercions true file.content lifecycle promotions expectedRevision with
  | error error => simp [hplan] at h
  | ok plan =>
    have ⟨current, hplanned, hcases⟩ := planSave_ok hcoercions hplan
    cases hcases with
    | inl hunchanged => simp [hplan, hunchanged.1] at h
    | inr hreplace =>
      simp only [hplan, hreplace.1, Option.some.injEq] at h
      rw [← h]
      exact ⟨current, hplanned, rfl⟩

variable [DecidableEq Saver]

theorem perform_kept (hfile : Kept coercions file) (hstep : Undisturbed file step) :
    Kept coercions (file.perform coercions step) := by
  cases step with
  | check saver lifecycle promotions expectedRevision =>
    have hpending : ∀ other save,
        (file.perform coercions (.check saver lifecycle promotions expectedRevision)).pending other =
          some save → file.pending other = some save ∨
            file.checked coercions lifecycle promotions expectedRevision = some save := by
      intro other save hsave
      simp only [perform] at hsave
      by_cases hsame : other = saver
      · rw [if_pos hsame] at hsave
        exact .inr hsave
      · rw [if_neg hsame] at hsave
        exact .inl hsave
    refine ⟨?_, ?_, hfile.returned, hfile.distinct⟩
    · intro other save hsave
      cases hpending other save hsave with
      | inl hold => exact hfile.bounded other save hold
      | inr hnew => exact Nat.le_of_eq (checked_checkedAt hnew)
    · intro other save hsave hcheckedAt
      cases hpending other save hsave with
      | inl hold => exact hfile.pending other save hold hcheckedAt
      | inr hnew => exact checked_planned hcoercions hnew
  | replace saver =>
    cases hsave : file.pending saver with
    | none =>
      simp only [perform, hsave]
      exact hfile
    | some save =>
      have ⟨current, hplanned, hnext⟩ := hfile.pending saver save hsave (hstep save hsave)
      have hreturned : ∀ entry ∈ file.returned, entry.1 < current.revision := by
        intro entry hentry
        have ⟨state, hstate, hless⟩ := hfile.returned entry hentry
        rw [← Except.ok.inj (hplanned.loaded.symm.trans hstate)] at hless
        exact hless
      have hloaded := hplanned.loadable
      rw [← hnext] at hloaded
      have hrevision : save.next.revision = current.revision + 1 := by rw [hnext]
      have hexpected := hplanned.expected
      simp only [perform, hsave]
      constructor
      · intro other later hlater
        have hbound : later.checkedAt ≤ file.replacements := by
          by_cases hsame : other = saver
          · simp [hsame] at hlater
          · exact hfile.bounded other later (by simpa [hsame] using hlater)
        exact Nat.le_succ_of_le hbound
      · intro other later hlater hcheckedAt
        by_cases hsame : other = saver
        · simp [hsame] at hlater
        · have hbound := hfile.bounded other later (by simpa [hsame] using hlater)
          simp only at hcheckedAt
          omega
      · intro entry hentry
        refine ⟨save.next, hloaded, ?_⟩
        cases List.mem_append.mp hentry with
        | inl hold =>
          have hless := hreturned entry hold
          omega
        | inr hnew =>
          rw [List.mem_singleton.mp hnew]
          omega
      · rw [List.map_append, List.nodup_append]
        refine ⟨hfile.distinct, by simp, ?_⟩
        intro first hfirst second hsecond hsame
        have ⟨entry, hentry, hrevisionOf⟩ := List.mem_map.mp hfirst
        have hless := hreturned entry hentry
        have hlast : second = save.expectedRevision := by simpa using hsecond
        omega

theorem after_contains {earlier : PersistedDiscoveryState} (hfile : Kept coercions file)
    (hearlier : load coercions true file.content = .ok earlier) {run : List (SaverStep Saver)}
    (hrun : ∀ call ∈ calls (perform coercions) file run, Undisturbed call.1 call.2) :
    ∃ state, load coercions true (after (perform coercions) file run).content = .ok state ∧
      Keeps earlier state := by
  have hstep : ∀ (file : SharedFile Saver) (step : SaverStep Saver),
      (Kept coercions file ∧ ∃ state, load coercions true file.content = .ok state ∧
        Keeps earlier state) → Undisturbed file step →
      Kept coercions (file.perform coercions step) ∧ ∃ state,
        load coercions true (file.perform coercions step).content = .ok state ∧ Keeps earlier state := by
    intro file step h hstep
    have ⟨hkept, state, hstate, hkeeps⟩ := h
    have ⟨next, hnext, hmore⟩ := perform_contains hkept hstep hstate
    exact ⟨perform_kept hcoercions hkept hstep, next, hnext, hkeeps.trans hmore⟩
  exact (after_invariant hstep ⟨hfile, earlier, hearlier, .refl earlier⟩ hrun).2

/-- In every interleaving of the steps of any savers in which no other replacement comes
between the two steps of a save, no expected revision is answered by two new revisions, and
every document that was on disk is contained in the later ones. -/
theorem undisturbed_savers (content : Option Text) (before later : List (SaverStep Saver))
    (hrun : ∀ call ∈ calls (perform coercions) (opened content) (before ++ later),
      Undisturbed call.1 call.2) :
    let file := after (perform coercions) (opened content) before
    let final := after (perform coercions) (opened content) (before ++ later)
    (final.returned.map Prod.fst).Nodup ∧
      ∀ earlier, load coercions true file.content = .ok earlier →
        ∃ state, load coercions true final.content = .ok state ∧ Keeps earlier state := by
  intro file final
  rw [calls_append] at hrun
  have hbefore : Kept coercions file :=
    after_invariant (fun _ _ => perform_kept hcoercions) (kept_opened coercions content)
      fun call hcall => hrun call (List.mem_append_left _ hcall)
  have hfinal : final = after (perform coercions) file later := after_append ..
  have hlater : ∀ call ∈ calls (perform coercions) file later, Undisturbed call.1 call.2 :=
    fun call hcall => hrun call (List.mem_append_right _ hcall)
  rw [hfinal]
  constructor
  · have hkept : Kept coercions (after (perform coercions) file later) :=
      after_invariant (fun _ _ => perform_kept hcoercions) hbefore hlater
    exact hkept.distinct
  · exact fun earlier hearlier => after_contains hcoercions hbefore hearlier hlater

end

/-- Two savers that check against the same revision and then both replace the file. -/
def crossingSaves : List (SaverStep Bool) :=
  [.check false (observedLifecycle [1]) (observedPromotions [1]) 0,
    .check true {} ⟨[], []⟩ 0, .replace false, .replace true]

/-- Both crossing saves return a new revision, and the first of them is lost. -/
theorem crossing_saves_lose :
    let file := after (perform plainCoercions) (opened none) (crossingSaves.take 3)
    let final := after (perform plainCoercions) (opened none) crossingSaves
    ¬ (final.returned.map Prod.fst).Nodup ∧
      ∃ earlier later, load plainCoercions true file.content = .ok earlier ∧
        load plainCoercions true final.content = .ok later ∧ ¬ Keeps earlier later := by
  refine ⟨by decide +kernel, ⟨1, observedLifecycle [1], observedPromotions [1]⟩,
    ⟨1, {}, ⟨[], []⟩⟩, by decide +kernel, by decide +kernel, ?_⟩
  intro hkeeps
  have hempty := List.subset_nil.mp hkeeps.generations
  simp [observedLifecycle] at hempty

theorem undisturbed_of_check {coercions : Coercions} {file : SharedFile Bool}
    (saver : Bool) (lifecycle : IdentityLifecycleState) (promotions : CorePromotionResult)
    (expectedRevision : Int) :
    Undisturbed (file.perform coercions (.check saver lifecycle promotions expectedRevision))
      (.replace saver) := by
  intro save hsave
  have hchecked : file.checked coercions lifecycle promotions expectedRevision = some save := by
    simpa [perform] using hsave
  exact checked_checkedAt hchecked

/-- Two saves that do not cross keep each other's update. -/
theorem serial_saves_kept :
    let run : List (SaverStep Bool) :=
      [.check false (observedLifecycle [1]) (observedPromotions [1]) 0, .replace false,
        .check true (observedLifecycle [1, 2]) (observedPromotions [1, 2]) 1]
    let final := after (perform plainCoercions) (opened none) (run ++ [.replace true])
    (final.returned.map Prod.fst).Nodup := by
  intro run
  refine (undisturbed_savers plainCoercions_rereads none run [.replace true] ?_).1
  intro call hcall
  simp only [run, List.cons_append, List.nil_append, calls, List.mem_cons, List.not_mem_nil,
    or_false] at hcall
  rcases hcall with hcall | hcall | hcall | hcall <;> rw [hcall]
  · trivial
  · exact undisturbed_of_check _ _ _ _
  · trivial
  · exact undisturbed_of_check _ _ _ _

end SharedFile

end TwinForge.Discovery
