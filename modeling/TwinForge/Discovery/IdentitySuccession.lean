import TwinForge.Discovery.LifecycleLedger
import TwinForge.Foundation.Succession

/-! # Succession of durable identities

Where the transition events of a ledger lead. A directive is checked against the keys
still active only on its source side, so a run is well founded where no directive of a
call leads to a key that an earlier directive of the same call retired.
-/

namespace TwinForge.Discovery

open Guards Handover Relation Scans List

/-- Some transition event leads from one key to the other. -/
def IdentityLifecycleState.Succeeds (state : IdentityLifecycleState) (source target : Text) :
    Prop :=
  ∃ event ∈ state.events, event.eventType.isTransition = true ∧ source ∈ event.sourceKeys ∧
    target ∈ event.targetKeys

/-- Following the transitions never returns, and arrives at an active identity. -/
structure WellFoundedSuccession (state : IdentityLifecycleState) : Prop where
  acyclic : ∀ key, ¬ TransGen state.Succeeds key key
  reaches : ∀ key ∈ state.inactiveIdentityKeys, ∃ active ∈ state.activeIdentityKeys,
    TransGen state.Succeeds key active

/-- No directive leads to a key an earlier directive of the call retired. -/
def ForwardOnly (directives : List IdentityTransitionDirective) : Prop :=
  directives.Pairwise fun earlier later => ∀ key ∈ later.targetKeys, key ∉ earlier.sourceKeys

instance (directives : List IdentityTransitionDirective) : Decidable (ForwardOnly directives) := by
  unfold ForwardOnly
  infer_instance

def Succeeded (db : CharacterDatabase) (state : IdentityLifecycleState) (call : LifecycleCall) :
    Prop :=
  ∃ next, advanceIdentityLifecycle db state call.acceptance call.directives = .ok next

/-- No directive of the call leads to a key that is inactive when it is applied. -/
def LiveTargets (db : CharacterDatabase) (state : IdentityLifecycleState) (call : LifecycleCall) :
    Prop :=
  ∀ observed, (sortedBy (fun first second => compare first.key second.key)
      call.acceptance.acceptedIdentities).foldlM observe state = .ok observed →
    ∀ before directive rest, call.directives = before ++ directive :: rest →
      ∀ changed, before.foldlM
          (direct db observed.generations call.acceptance.acceptedIdentities)
          (openTransitions observed) = .ok changed →
        ∀ key ∈ directive.targetKeys, key ∉ changed.inactive

def IdentityTransitionDirective.handover (directive : IdentityTransitionDirective) :
    Handover Text :=
  ⟨directive.sourceKeys, directive.targetKeys⟩

/-- A ledger that records the handovers of a log, in whatever order. -/
structure Records (log : List (Handover Text)) (state : IdentityLifecycleState) : Prop where
  forward : Forward log
  targets : ∀ step ∈ log, step.targets ≠ []
  observed : ∀ step ∈ log, ∀ key ∈ step.targets, key ∈ state.generations.map (·.identityKey)
  succeeds : ∀ source target, state.Succeeds source target ↔ Succeeds log source target
  inactive : ∀ key, key ∈ state.inactiveIdentityKeys ↔ Left log key

variable {db : CharacterDatabase}

theorem Records.wellFounded {log : List (Handover Text)} {state : IdentityLifecycleState}
    (h : Records log state) : WellFoundedSuccession state := by
  have hsame : state.Succeeds = Succeeds log := by
    funext source target
    exact propext (h.succeeds source target)
  constructor
  · intro key
    rw [hsame]
    exact h.forward.acyclic key
  · intro key hkey
    have ⟨active, hwalk, hstays, step, hstep, htarget⟩ :=
      h.forward.reaches h.targets ((h.inactive key).mp hkey)
    have hobserved := h.observed step hstep active htarget
    have hactive : active ∉ state.inactiveIdentityKeys :=
      fun hinactive => hstays ((h.inactive active).mp hinactive)
    refine ⟨active, ?_, hsame ▸ hwalk⟩
    rw [IdentityLifecycleState.activeIdentityKeys, mem_sortedSet, mem_filter]
    exact ⟨hobserved, by simpa using hactive⟩

variable {directives : List IdentityTransitionDirective}

theorem left_handovers {key : Text} :
    Left (directives.map (·.handover)) key ↔ ∃ directive ∈ directives,
      key ∈ directive.sourceKeys := by
  simp [Left, IdentityTransitionDirective.handover]

theorem succeeds_handovers {source target : Text} :
    Succeeds (directives.map (·.handover)) source target ↔ ∃ directive ∈ directives,
      source ∈ directive.sourceKeys ∧ target ∈ directive.targetKeys := by
  simp [Handover.Succeeds, IdentityTransitionDirective.handover]

theorem succeeds_append {earlier later : List (Handover Text)} {source target : Text} :
    Succeeds (earlier ++ later) source target ↔
      Succeeds earlier source target ∨ Succeeds later source target := by
  simp only [Handover.Succeeds, mem_append]
  grind

theorem left_append {earlier later : List (Handover Text)} {key : Text} :
    Left (earlier ++ later) key ↔ Left earlier key ∨ Left later key := by
  simp only [Left, mem_append]
  grind

theorem forward_handovers (hwellFormed : ∀ directive ∈ directives, WellFormed directive)
    (hforward : ForwardOnly directives) : Forward (directives.map (·.handover)) := by
  induction directives with
  | nil => trivial
  | cons directive directives ih =>
    have ⟨hhere, hrest⟩ := pairwise_cons.mp hforward
    refine ⟨?_, ih (fun later hlater => hwellFormed later (.tail _ hlater)) hrest⟩
    intro step hstep key hkey hsource
    cases mem_cons.mp hstep with
    | inl hsame =>
      rw [hsame] at hkey
      exact (hwellFormed directive (.head _)).disjoint key hsource hkey
    | inr hlater =>
      have ⟨later, hmember, hsame⟩ := mem_map.mp hlater
      rw [← hsame] at hkey
      exact hhere later hmember key hkey hsource

theorem Advanced.directed {previous next observed : IdentityLifecycleState}
    {acceptance : AcceptanceResult} {changed : Transitions}
    (h : Advanced db previous acceptance directives next observed changed) :
    ∀ directive ∈ directives, WellFormed directive ∧
      ∀ key ∈ directive.targetKeys, key ∈ acceptance.acceptedIdentities.map (·.key) := by
  apply foldlM_history h.transitions
  · simp
  · intro past directive state next _ hpast hstep other hother
    have hdirected := direct_ok hstep
    cases mem_append.mp hother with
    | inl hbefore => exact hpast other hbefore
    | inr hhere =>
      rw [mem_singleton.mp hhere]
      exact ⟨hdirected.wellFormed, hdirected.accepted⟩

/-! ## Runs -/

section

variable {log : List (Handover Text)} {previous next observed : IdentityLifecycleState}
  {acceptance : AcceptanceResult} {directives : List IdentityTransitionDirective}
  {changed : Transitions}

theorem Advanced.succeeds (hprevious : Ledger previous)
    (h : Advanced db previous acceptance directives next observed changed) (source target : Text) :
    next.Succeeds source target ↔ previous.Succeeds source target ∨ ∃ directive ∈ directives,
      source ∈ directive.sourceKeys ∧ target ∈ directive.targetKeys := by
  have hobserved := h.observing hprevious
  have hmember : ∀ event, event.eventType.isTransition = true →
      (event ∈ next.events ↔
        event ∈ previous.events ∨ event ∈ directives.map transitionEvent) := by
    intro event htransition
    have hevents : (changed.over observed).events = changed.events := rfl
    rw [h.reordered.events.mem_iff, hevents, (h.directing hprevious).events, mem_append,
      hobserved.transitions event htransition]
  constructor
  · intro hsucceeds
    have ⟨event, hevent, htransition, hsource, htarget⟩ := hsucceeds
    cases (hmember event htransition).mp hevent with
    | inl hbefore => exact .inl ⟨event, hbefore, htransition, hsource, htarget⟩
    | inr hcall =>
      have ⟨directive, hdirective, hsame⟩ := mem_map.mp hcall
      rw [← hsame] at hsource htarget
      exact .inr ⟨directive, hdirective, mem_transitionEvent_sourceKeys.mp hsource,
        mem_transitionEvent_targetKeys.mp htarget⟩
  · intro heither
    cases heither with
    | inl hbefore =>
      have ⟨event, hevent, htransition, hends⟩ := hbefore
      exact ⟨event, (hmember event htransition).mpr (.inl hevent), htransition, hends⟩
    | inr hcall =>
      have ⟨directive, hdirective, hsource, htarget⟩ := hcall
      have htransition := transitionEvent_isTransition directive
      exact ⟨transitionEvent directive,
        (hmember _ htransition).mpr (.inr (mem_map_of_mem hdirective)), htransition,
        mem_transitionEvent_sourceKeys.mpr hsource, mem_transitionEvent_targetKeys.mpr htarget⟩

theorem Advanced.retired (hprevious : Ledger previous)
    (h : Advanced db previous acceptance directives next observed changed) (key : Text) :
    key ∈ next.inactiveIdentityKeys ↔
      key ∈ previous.inactiveIdentityKeys ∨ ∃ directive ∈ directives,
        key ∈ directive.sourceKeys := by
  have hinactive : (changed.over observed).inactiveIdentityKeys = changed.inactive := rfl
  rw [h.reordered.inactive, hinactive, (h.directing hprevious).inactive,
    (h.observing hprevious).inactive, mem_append, mem_flatMap]

theorem Records.advance (hrecords : Records log previous) (hprevious : Ledger previous)
    (h : Advanced db previous acceptance directives next observed changed)
    (hforward : ForwardOnly directives) :
    Records (log ++ directives.map (·.handover)) next := by
  have hobserved := h.observing hprevious
  have hdirected := h.directed
  have hgenerations : ∀ key, key ∈ observed.generations.map (·.identityKey) →
      key ∈ next.generations.map (·.identityKey) := by
    intro key hkey
    exact (h.reordered.generations.map _).mem_iff.mpr hkey
  have htarget : ∀ step ∈ directives.map (·.handover), ∀ key ∈ step.targets,
      key ∈ acceptance.acceptedIdentities.map (·.key) := by
    intro step hstep key hkey
    have ⟨directive, hdirective, hsame⟩ := mem_map.mp hstep
    rw [← hsame] at hkey
    exact (hdirected directive hdirective).2 key hkey
  constructor
  · rw [forward_append]
    refine ⟨hrecords.forward, forward_handovers (fun d hd => (hdirected d hd).1) hforward, ?_⟩
    intro step hstep key hkey hleft
    have ⟨record, hrecord, hsame⟩ := mem_map.mp (htarget step hstep key hkey)
    apply hobserved.live record hrecord
    rw [hsame]
    exact (hrecords.inactive key).mpr hleft
  · intro step hstep
    cases mem_append.mp hstep with
    | inl hbefore => exact hrecords.targets step hbefore
    | inr hcall =>
      have ⟨directive, hdirective, hsame⟩ := mem_map.mp hcall
      rw [← hsame]
      exact (hdirected directive hdirective).1.someTarget
  · intro step hstep key hkey
    cases mem_append.mp hstep with
    | inl hbefore =>
      apply hgenerations
      have ⟨generation, hgeneration, hsame⟩ :=
        mem_map.mp (hrecords.observed step hbefore key hkey)
      have hgrown := hobserved.grown.generations.subset hgeneration
      exact mem_map.mpr ⟨generation, hgrown, hsame⟩
    | inr hcall =>
      have ⟨record, hrecord, hsame⟩ := mem_map.mp (htarget step hcall key hkey)
      apply hgenerations
      rw [← hsame]
      exact hobserved.recorded record hrecord
  · intro source target
    rw [h.succeeds hprevious, succeeds_append, hrecords.succeeds, succeeds_handovers]
  · intro key
    rw [h.retired hprevious, left_append, hrecords.inactive, left_handovers]

theorem pairwise_of_splits {Item : Type} {related : Item → Item → Prop} {items : List Item}
    (h : ∀ before item rest, items = before ++ item :: rest →
      ∀ earlier ∈ before, related earlier item) : items.Pairwise related := by
  induction items using reverseRecOn with
  | nil => exact .nil
  | append_singleton items last ih =>
    rw [pairwise_append]
    refine ⟨ih ?_, by simp, ?_⟩
    · intro before item rest hitems
      exact h before item (rest ++ [last]) (by simp [hitems])
    · intro earlier hearlier item hitem
      rw [mem_singleton.mp hitem]
      exact h items last [] rfl earlier hearlier

theorem liveTargets_iff {state : IdentityLifecycleState} {call : LifecycleCall}
    (hstate : Ledger state) (hcall : Succeeded db state call) :
    LiveTargets db state call ↔ ForwardOnly call.directives := by
  have ⟨next, hnext⟩ := hcall
  have ⟨observed, changed, hadvanced⟩ := advance_ok hnext
  have hobserved := hadvanced.observing hstate
  have haccepted := hadvanced.accepted_live hstate
  have hsplit : ∀ before directive rest, call.directives = before ++ directive :: rest →
      ∃ middle, before.foldlM
          (direct db observed.generations call.acceptance.acceptedIdentities)
          (openTransitions observed) = .ok middle ∧ Changed observed before middle := by
    intro before directive rest hdirectives
    have hrun := hadvanced.transitions
    rw [hdirectives] at hrun
    have ⟨middle, hbefore, _⟩ := foldlM_append_ok.mp hrun
    exact ⟨middle, hbefore, changed_all hobserved.agrees haccepted hbefore⟩
  constructor
  · intro hlive
    apply pairwise_of_splits
    intro before directive rest hdirectives earlier hearlier key hkey hsource
    have ⟨middle, hmiddle, hchanged⟩ := hsplit before directive rest hdirectives
    have hlive' := hlive observed hadvanced.observations before directive rest hdirectives
      middle hmiddle key hkey
    apply hlive'
    rw [hchanged.inactive, mem_append, mem_flatMap]
    exact .inr ⟨earlier, hearlier, hsource⟩
  · intro hforward found hfound before directive rest hdirectives middle hmiddle key hkey hretired
    have hsame : found = observed := by
      have heq := hfound.symm.trans hadvanced.observations
      exact Except.ok.inj heq
    rw [hsame] at hmiddle
    have hchanged := changed_all hobserved.agrees haccepted hmiddle
    rw [hchanged.inactive] at hretired
    cases mem_append.mp hretired with
    | inl hbefore =>
      have htarget := (hadvanced.directed directive (by simp [hdirectives])).2 key hkey
      exact haccepted key htarget hbefore
    | inr hcall =>
      have ⟨earlier, hearlier, hsource⟩ := mem_flatMap.mp hcall
      rw [hdirectives] at hforward
      have hpair := (pairwise_append.mp hforward).2.2 earlier hearlier directive (.head _)
      exact hpair key hkey hsource

end

/-- The calls of a run that succeed keep their targets live. -/
def ForwardRun (db : CharacterDatabase) (run : List LifecycleCall) : Prop :=
  ∀ call ∈ calls (advanced db) {} run, Succeeded db call.1 call.2 →
    ForwardOnly call.2.directives

theorem Records.empty : Records [] {} where
  forward := trivial
  targets _ hstep := absurd hstep not_mem_nil
  observed _ hstep := absurd hstep not_mem_nil
  succeeds source target := by
    simp [IdentityLifecycleState.Succeeds, Handover.Succeeds]
  inactive key := by simp [Left]

theorem after_records {run : List LifecycleCall} (hforward : ForwardRun db run) :
    ∃ log, Records log (after (advanced db) {} run) := by
  have hinvariant : Ledger (after (advanced db) {} run) ∧
      ∃ log, Records log (after (advanced db) {} run) := by
    have hstep : ∀ (state : IdentityLifecycleState) (call : LifecycleCall),
        (Ledger state ∧ ∃ log, Records log state) →
        (Succeeded db state call → ForwardOnly call.directives) →
        Ledger (advanced db state call) ∧ ∃ log, Records log (advanced db state call) := by
      intro state call hstate hcall
      have ⟨hledger, log, hrecords⟩ := hstate
      refine ⟨(advanced_ledger hledger call).1, ?_⟩
      unfold advanced
      cases hresult : advanceIdentityLifecycle db state call.acceptance call.directives with
      | error _ => exact ⟨log, hrecords⟩
      | ok next =>
        have ⟨observed, changed, hadvanced⟩ := advance_ok hresult
        exact ⟨_, hrecords.advance hledger hadvanced (hcall ⟨next, hresult⟩)⟩
    exact after_invariant hstep ⟨Ledger.empty, [], Records.empty⟩ hforward
  exact hinvariant.2

/-- The succession is well founded after every part of a run, and every target is live when
it is named, exactly where no successful call of the run leads back to a key it retired. -/
theorem succession_iff (db : CharacterDatabase) (run : List LifecycleCall) :
    ((∀ before later, run = before ++ later →
        WellFoundedSuccession (after (advanced db) {} before)) ∧
      ∀ call ∈ calls (advanced db) {} run, Succeeded db call.1 call.2 →
        LiveTargets db call.1 call.2) ↔ ForwardRun db run := by
  have hledger : ∀ call ∈ calls (advanced db) {} run, Ledger call.1 := by
    intro call hcall
    have ⟨before, _, _, hfound⟩ := (mem_calls (advanced db)).mp hcall
    rw [hfound]
    exact after_ledger db before
  constructor
  · intro h call hcall hsucceeded
    have hlive := h.2 call hcall hsucceeded
    exact (liveTargets_iff (hledger call hcall) hsucceeded).mp hlive
  · intro hforward
    constructor
    · intro before later hrun
      have hbefore : ForwardRun db before := by
        intro call hcall
        apply hforward call
        rw [hrun, calls_append]
        exact mem_append_left _ hcall
      have ⟨log, hrecords⟩ := after_records hbefore
      exact hrecords.wellFounded
    · intro call hcall hsucceeded
      exact (liveTargets_iff (hledger call hcall) hsucceeded).mpr (hforward call hcall hsucceeded)

/-! ## A directive back to a retired key -/

def acceptedRecord (key : Text) : AcceptedIdentityRecord where
  key := key
  candidateKeys := ["candidate"]
  targetKeys := ["target"]
  reviews := [{
    candidateKey := "candidate", disposition := .accept, reviewedBy := "operator"
    reviewedAt := .epoch, rationale := "reviewed", durableIdentityKey := some key }]
  evidence := []
  conflictOverridden := false

def supersede (source target : Text) : IdentityTransitionDirective where
  transition := .supersede
  sourceKeys := [source]
  targetKeys := [target]
  directedBy := "operator"
  directedAt := .epoch
  rationale := "replaced"

/-- Two identities of one capture, each superseded by the other. -/
def exchange : LifecycleCall where
  acceptance := ⟨[acceptedRecord "a", acceptedRecord "b"]⟩
  directives := [supersede "a" "b", supersede "b" "a"]

/-- The exchange is accepted and leaves a cycle without an active identity. -/
theorem exchange_cycle :
    ¬ ∀ run : List LifecycleCall, WellFoundedSuccession (after (advanced Ascii.database) {} run) := by
  intro h
  have hwell := (h [exchange]).reaches "a" (by decide +kernel)
  have ⟨active, hactive, _⟩ := hwell
  have hnone : (after (advanced Ascii.database) {} [exchange]).activeIdentityKeys = [] := by
    decide +kernel
  rw [hnone] at hactive
  exact absurd hactive not_mem_nil

end TwinForge.Discovery
