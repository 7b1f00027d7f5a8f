import TwinForge.Discovery.IdentitySuccession
import TwinForge.Discovery.StateStoreRuns

/-! # Sessions on a state file

A caller that keeps its ledger in a file loads it, advances it and saves it at the revision
it has loaded. The file is read as the ledger in memory after the calls that were stored.
-/

namespace TwinForge.Discovery

open Scans List

structure Session where
  readable : Bool
  writable : Bool
  call : LifecycleCall
  promotions : CorePromotionResult

section

variable (db : CharacterDatabase) (coercions : Coercions)

/-- The file after a session. -/
def attend (content : Option Text) (session : Session) : Option Text :=
  match load coercions session.readable content with
  | .error _ => content
  | .ok state =>
    match advanceIdentityLifecycle db state.lifecycle session.call.acceptance
      session.call.directives with
    | .error _ => content
    | .ok next =>
      (save coercions session.readable session.writable content next session.promotions
        state.revision).1

def storedCalls (content : Option Text) : List Session → List LifecycleCall
  | [] => []
  | session :: later =>
    let next := attend db coercions content session
    let calls := storedCalls next later
    if next = content then calls else session.call :: calls

/-- What the file is read as after the sessions, which found none at first. -/
structure Refines (run : List Session) (state : PersistedDiscoveryState) : Prop where
  loaded : load coercions true (after (attend db coercions) none run) = .ok state
  ledger : state.lifecycle = after (advanced db) {} (storedCalls db coercions none run)
  revision : state.revision = (storedCalls db coercions none run).length
  consistent : Ledger state.lifecycle
  succession : (∀ session ∈ run, ForwardOnly session.call.directives) →
    WellFoundedSuccession state.lifecycle
  later : ∀ more, ∃ final, load coercions true (after (attend db coercions) none (run ++ more)) =
    .ok final ∧ Extends state.lifecycle final.lifecycle

end

variable {db : CharacterDatabase} {coercions : Coercions} {content : Option Text}

theorem storedCalls_sublist (run : List Session) :
    storedCalls db coercions content run <+ run.map Session.call := by
  induction run generalizing content with
  | nil => exact Sublist.slnil
  | cons session later ih =>
    rw [storedCalls, map_cons]
    split
    · exact ih.cons _
    · exact ih.cons_cons _

theorem storedCalls_append (run more : List Session) :
    storedCalls db coercions content (run ++ more) =
      storedCalls db coercions content run ++
        storedCalls db coercions (after (attend db coercions) content run) more := by
  induction run generalizing content with
  | nil => rfl
  | cons session later ih =>
    simp only [cons_append, storedCalls, ih, after_cons]
    split <;> rfl

/-- A session leaves the file, or replaces it by one that is read as its call's ledger. -/
theorem attend_loaded (hcoercions : Rereads coercions) {state : PersistedDiscoveryState}
    (h : load coercions true content = .ok state) (session : Session) :
    attend db coercions content session = content ∨
      ∃ next, load coercions true (attend db coercions content session) = .ok next ∧
        next.lifecycle = advanced db state.lifecycle session.call ∧
        next.revision = state.revision + 1 := by
  unfold attend
  split
  · exact .inl rfl
  next found hfound =>
    cases (load_readable hfound).symm.trans h
    split
    · exact .inl rfl
    next ledger hledger =>
      have hsaved := @save_outcome _ content session.readable session.writable ledger
        session.promotions state.revision hcoercions
      generalize save coercions _ _ content ledger _ _ = saved at hsaved ⊢
      cases hsaved with
      | raised error => exact .inl rfl
      | unchanged current loaded same => exact .inl rfl
      | stored current loaded differs loadable keeps =>
        cases loaded.symm.trans h
        exact .inr ⟨_, loadable, by rw [advanced, hledger], rfl⟩

theorem attended_loaded (hcoercions : Rereads coercions) {state : PersistedDiscoveryState}
    (h : load coercions true content = .ok state) (run : List Session) :
    ∃ final, load coercions true (after (attend db coercions) content run) = .ok final ∧
      final.lifecycle = after (advanced db) state.lifecycle (storedCalls db coercions content run) ∧
      final.revision = state.revision + (storedCalls db coercions content run).length := by
  induction run generalizing content state with
  | nil => exact ⟨state, h, rfl, (Int.add_zero _).symm⟩
  | cons session later ih =>
    rw [after_cons, storedCalls]
    by_cases hsame : attend db coercions content session = content
    · rw [if_pos hsame, hsame]
      exact ih h
    · rw [if_neg hsame]
      rcases (attend_loaded hcoercions h session).resolve_left hsame with
        ⟨next, hnext, hledger, hrevision⟩
      rcases ih hnext with ⟨final, hfinal, hgrown, hcount⟩
      refine ⟨final, hfinal, by rw [hgrown, hledger, after_cons], ?_⟩
      rw [hcount, hrevision, length_cons]
      omega

/-- After any sessions the file is read as the ledger in memory after the calls that were
stored. It adds up, later sessions extend it, and its succession is well founded where no
session leads back to a key it retired. -/
theorem sessions_refine (hcoercions : Rereads coercions) (run : List Session) :
    ∃ state, Refines db coercions run state := by
  rcases @attended_loaded db _ none hcoercions emptyState rfl run with
    ⟨state, hstate, hledger, hrevision⟩
  change state.lifecycle = after (advanced db) {} _ at hledger
  refine ⟨state, hstate, hledger, by rw [hrevision]; exact Int.zero_add _,
    hledger ▸ after_ledger db _, fun hforward => ?_, fun more => ?_⟩
  · have hrun : ForwardRun db (storedCalls db coercions none run) := by
      intro call hcall _
      rcases (mem_calls (advanced db)).mp hcall with ⟨_, _, hsplit, _⟩
      have hstored := hsplit ▸ mem_append_right _ mem_cons_self
      rcases mem_map.mp ((storedCalls_sublist run).subset hstored) with ⟨session, hmem, hsame⟩
      exact hsame ▸ hforward session hmem
    rcases after_records hrun with ⟨log, hrecords⟩
    exact hledger ▸ hrecords.wellFounded
  · rcases @attended_loaded db _ none hcoercions emptyState rfl (run ++ more) with
      ⟨final, hfinal, hgrown, _⟩
    change final.lifecycle = after (advanced db) {} _ at hgrown
    rw [storedCalls_append] at hgrown
    refine ⟨final, hfinal, ?_⟩
    rw [hledger, hgrown]
    exact after_extends db _ _

def firstSession : Session where
  readable := true
  writable := true
  call := { acceptance := ⟨[acceptedRecord "a"]⟩ }
  promotions := ⟨[], []⟩

/-- A session, and its call once more. -/
theorem sessions_refine_twice :
    ∃ state, Refines Ascii.database plainCoercions [firstSession, firstSession] state :=
  sessions_refine plainCoercions_rereads [firstSession, firstSession]

end TwinForge.Discovery
