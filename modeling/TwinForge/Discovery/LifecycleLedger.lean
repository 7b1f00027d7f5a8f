import Mathlib.Data.List.Perm.Subperm
import Mathlib.Tactic.Push
import TwinForge.Discovery.CorePromotion
import TwinForge.Foundation.Scans

/-! # The ledger a run of lifecycle calls keeps

Generations of a key are numbered from one without a gap, one event is recorded for each
of them, and a key is left by one transition at most. Calls only append: what they
refuse leaves the state they were given.
-/

namespace TwinForge.Discovery

open Guards Scans List

def IdentityLifecycleEventType.isTransition : IdentityLifecycleEventType → Bool
  | .created | .observed => false
  | .superseded | .merged | .split => true

namespace IdentityLifecycleState

variable (state : IdentityLifecycleState) (key : Text)

def generationsOf : List DurableIdentityGeneration :=
  state.generations.filter (·.identityKey = key)

def observations (eventType : IdentityLifecycleEventType) : Nat :=
  state.events.countP fun event => event.eventType = eventType ∧ key ∈ event.targetKeys

/-- How many transition events the key was a source of. -/
def departures : Nat :=
  state.events.countP fun event => event.eventType.isTransition ∧ key ∈ event.sourceKeys

end IdentityLifecycleState

/-- The accounts of every key agree. -/
structure Ledger (state : IdentityLifecycleState) : Prop where
  numbered : ∀ key, (generationNumbersOf state.generations key).Perm
    (consecutive (state.generationsOf key).length)
  created : ∀ key, state.observations key .created = min (state.generationsOf key).length 1
  observed : ∀ key, state.observations key .observed = (state.generationsOf key).length - 1
  departed : ∀ key, state.departures key = if key ∈ state.inactiveIdentityKeys then 1 else 0

/-- A later state keeps everything of an earlier one, and no retired key gains anything. -/
structure Extends (earlier later : IdentityLifecycleState) : Prop where
  generations : earlier.generations.Subperm later.generations
  events : earlier.events.Subperm later.events
  inactive : ∀ key ∈ earlier.inactiveIdentityKeys, key ∈ later.inactiveIdentityKeys
  retired : ∀ key ∈ earlier.inactiveIdentityKeys,
    (later.generationsOf key).Perm (earlier.generationsOf key)

/-- Two states that differ in the order of their entries only. -/
structure Reordered (state other : IdentityLifecycleState) : Prop where
  generations : other.generations.Perm state.generations
  events : other.events.Perm state.events
  inactive : ∀ key, key ∈ other.inactiveIdentityKeys ↔ key ∈ state.inactiveIdentityKeys

section

variable {state other earlier later : IdentityLifecycleState}

theorem Reordered.generationsOf (h : Reordered state other) (key : Text) :
    (other.generationsOf key).Perm (state.generationsOf key) :=
  h.generations.filter _

theorem Ledger.reordered (hledger : Ledger state) (h : Reordered state other) :
    Ledger other := by
  have hlength : ∀ key, (other.generationsOf key).length = (state.generationsOf key).length :=
    fun key => (h.generationsOf key).length_eq
  have hcount : ∀ counted : IdentityLifecycleEvent → Bool,
      other.events.countP counted = state.events.countP counted :=
    fun counted => h.events.countP_eq counted
  constructor
  · intro key
    have hnumbers : (generationNumbersOf other.generations key).Perm
        (generationNumbersOf state.generations key) := (h.generationsOf key).map _
    rw [hlength]
    exact hnumbers.trans (hledger.numbered key)
  · intro key
    rw [hlength, ← hledger.created]
    exact hcount _
  · intro key
    rw [hlength, ← hledger.observed]
    exact hcount _
  · intro key
    have hdeparted := hledger.departed key
    simp only [IdentityLifecycleState.departures, hcount, h.inactive key] at hdeparted ⊢
    exact hdeparted

theorem Extends.refl (state : IdentityLifecycleState) : Extends state state where
  generations := .refl _
  events := .refl _
  inactive _ h := h
  retired _ _ := .refl _

theorem Extends.trans (hfirst : Extends earlier state) (hsecond : Extends state later) :
    Extends earlier later where
  generations := hfirst.generations.trans hsecond.generations
  events := hfirst.events.trans hsecond.events
  inactive key hkey := hsecond.inactive key (hfirst.inactive key hkey)
  retired key hkey :=
    (hsecond.retired key (hfirst.inactive key hkey)).trans (hfirst.retired key hkey)

theorem Reordered.extends (h : Reordered state other) : Extends state other where
  generations := h.generations.symm.subperm
  events := h.events.symm.subperm
  inactive key hkey := (h.inactive key).mpr hkey
  retired key _ := h.generationsOf key

end

/-! ## Numbers -/

theorem consecutive_succ (count : Nat) :
    consecutive (count + 1) = consecutive count ++ [(count : Int) + 1] := by
  simp [consecutive, range_succ]

@[simp] theorem length_consecutive (count : Nat) : (consecutive count).length = count := by
  simp [consecutive]

theorem foldl_max_consecutive (count : Nat) : (consecutive count).foldl max 0 = count := by
  induction count with
  | zero => rfl
  | succ count ih =>
    rw [consecutive_succ, foldl_append, ih]
    simp only [foldl_cons, foldl_nil]
    omega

theorem consecutive_pairwise (count : Nat) : (consecutive count).Pairwise (· ≤ ·) := by
  induction count with
  | zero => simp [consecutive]
  | succ count ih =>
    rw [consecutive_succ, pairwise_append]
    refine ⟨ih, by simp, ?_⟩
    intro first hfirst second hsecond
    have ⟨i, hi, hvalue⟩ := mem_map.mp hfirst
    have hbelow : i < count := mem_range.mp hi
    have hlast : second = (count : Int) + 1 := mem_singleton.mp hsecond
    omega

theorem sortedBy_numbers (numbers : List Int) :
    sortedBy compare numbers = numbers.insertionSort (· ≤ ·) := by
  unfold sortedBy
  congr 1
  funext first second
  exact propext Int.isLE_compare

theorem sortedBy_consecutive {numbers : List Int} {count : Nat}
    (h : numbers.Perm (consecutive count)) : sortedBy compare numbers = consecutive count := by
  rw [sortedBy_numbers]
  have hsorted := pairwise_insertionSort (· ≤ ·) numbers
  exact ((perm_insertionSort _ numbers).trans h).eq_of_pairwise' hsorted
    (consecutive_pairwise count)

namespace Ledger

variable {state : IdentityLifecycleState}

theorem empty : Ledger {} := by
  constructor <;> intro key <;> rfl

theorem knownGeneration_eq (hledger : Ledger state) (key : Text) :
    knownGeneration state.generations key = (state.generationsOf key).length := by
  rw [← foldl_max_consecutive]
  exact (hledger.numbered key).foldl_eq 0

theorem validateGenerations_ok (hledger : Ledger state) : validateGenerations state = .ok () := by
  refine forM_eq_ok.mpr fun key _ => ?_
  simp only [refuse_eq_ok, ne_eq, not_not]
  rw [sortedBy_consecutive (hledger.numbered key), length_consecutive]

end Ledger

/-! ## Observations -/

variable {record : AcceptedIdentityRecord}

theorem durableGeneration_ok {number : Int} {generation : DurableIdentityGeneration}
    (h : durableGeneration record number = .ok generation) :
    generation.identityKey = record.key ∧ generation.generation = number := by
  simp only [durableGeneration, bind_eq_ok, pure_eq_ok] at h
  have ⟨time, _, hgeneration⟩ := h
  rw [← hgeneration]
  exact ⟨rfl, rfl⟩

variable {ledger : IdentityLifecycleState} {next : IdentityLifecycleState}

theorem observe_ok (h : observe ledger record = .ok next) :
    record.key ∉ ledger.inactiveIdentityKeys ∧
      ∃ generation : DurableIdentityGeneration, generation.identityKey = record.key ∧
        generation.generation = knownGeneration ledger.generations record.key + 1 ∧
        next = { ledger with
          generations := ledger.generations ++ [generation]
          events := ledger.events ++ [observationEvent record generation] } := by
  simp only [observe, bind_eq_ok, refuse_eq_ok, exists_unit, pure_eq_ok] at h
  have ⟨hlive, generation, hgeneration, hnext⟩ := h
  have ⟨hkey, hnumber⟩ := durableGeneration_ok hgeneration
  exact ⟨hlive, generation, hkey, hnumber, hnext.symm⟩

theorem generationsOf_append (state : IdentityLifecycleState)
    (generation : DurableIdentityGeneration) (events : List IdentityLifecycleEvent) (key : Text) :
    ({ state with generations := state.generations ++ [generation], events } :
        IdentityLifecycleState).generationsOf key =
      if generation.identityKey = key then state.generationsOf key ++ [generation]
      else state.generationsOf key := by
  unfold IdentityLifecycleState.generationsOf
  rw [filter_append]
  split <;> simp [*]

theorem observationEvent_counts (record : AcceptedIdentityRecord)
    (generation : DurableIdentityGeneration) (key : Text) (eventType : IdentityLifecycleEventType) :
    ([observationEvent record generation].countP fun event =>
        event.eventType = eventType ∧ key ∈ event.targetKeys) =
      if record.key = key ∧ (observationEvent record generation).eventType = eventType
        then 1 else 0 := by
  have hmember : key ∈ (observationEvent record generation).targetKeys ↔ record.key = key := by
    simp [observationEvent, eq_comm]
  rw [countP_singleton]
  simp only [hmember, decide_eq_true_eq, and_comm]

theorem Ledger.observe (hledger : Ledger ledger) (h : Discovery.observe ledger record = .ok next) :
    Ledger next := by
  have ⟨_, generation, hkey, hnumber, hnext⟩ := observe_ok h
  rw [hledger.knownGeneration_eq] at hnumber
  have hof := generationsOf_append ledger generation
    (ledger.events ++ [observationEvent record generation])
  have hobservations : ∀ key eventType, next.observations key eventType =
      ledger.observations key eventType +
        if record.key = key ∧ (observationEvent record generation).eventType = eventType
          then 1 else 0 := by
    intro key eventType
    rw [← observationEvent_counts, hnext]
    exact countP_append
  have htype : (observationEvent record generation).eventType =
      if (ledger.generationsOf record.key).length = 0 then .created else .observed := by
    simp only [observationEvent, hnumber]
    by_cases hfirst : (ledger.generationsOf record.key).length = 0
    · rw [if_pos hfirst, if_pos (by omega)]
    · rw [if_neg hfirst, if_neg (by omega)]
  rw [hkey] at hof
  constructor
  · intro key
    have hnumbers : generationNumbersOf next.generations key =
        (next.generationsOf key).map (·.generation) := rfl
    rw [hnumbers, hnext, hof]
    by_cases hsame : record.key = key
    · rw [if_pos hsame, map_append, length_append, length_singleton,
        consecutive_succ]
      have hlast : [generation].map (·.generation) =
          [((ledger.generationsOf key).length : Int) + 1] := by
        simp [hnumber, hsame]
      rw [hlast]
      exact (hledger.numbered key).append_right _
    · rw [if_neg hsame]
      exact hledger.numbered key
  · intro key
    rw [hobservations, hledger.created, htype, hnext, hof]
    by_cases hsame : record.key = key
    · rw [if_pos hsame, length_append, length_singleton, hsame]
      by_cases hfirst : (ledger.generationsOf key).length = 0
      · simp [hfirst]
      · simp [hfirst]
        omega
    · simp [hsame]
  · intro key
    rw [hobservations, hledger.observed, htype, hnext, hof]
    by_cases hsame : record.key = key
    · rw [if_pos hsame, length_append, length_singleton, hsame]
      by_cases hfirst : (ledger.generationsOf key).length = 0
      · simp [hfirst]
      · simp [hfirst]
        omega
    · simp [hsame]
  · intro key
    have hdepartures : next.departures key = ledger.departures key := by
      rw [hnext]
      simp [IdentityLifecycleState.departures, observationEvent]
    rw [hdepartures, hledger.departed, hnext]

theorem extends_observe (h : observe ledger record = .ok next) : Extends ledger next := by
  have ⟨hlive, generation, hkey, _, hnext⟩ := observe_ok h
  rw [hnext]
  constructor
  · exact (sublist_append_left ..).subperm
  · exact (sublist_append_left ..).subperm
  · exact fun _ hinactive => hinactive
  · intro key hinactive
    have hother : generation.identityKey ≠ key := by
      rw [hkey]
      intro hsame
      exact hlive (hsame ▸ hinactive)
    rw [generationsOf_append, if_neg hother]

structure Observed (previous : IdentityLifecycleState) (past : List AcceptedIdentityRecord)
    (ledger : IdentityLifecycleState) : Prop where
  agrees : Ledger ledger
  grown : Extends previous ledger
  inactive : ledger.inactiveIdentityKeys = previous.inactiveIdentityKeys
  live : ∀ record ∈ past, record.key ∉ previous.inactiveIdentityKeys
  recorded : ∀ record ∈ past, record.key ∈ ledger.generations.map (·.identityKey)
  transitions : ∀ event, event.eventType.isTransition = true →
    (event ∈ ledger.events ↔ event ∈ previous.events)

theorem observed_all {previous observed : IdentityLifecycleState}
    {records : List AcceptedIdentityRecord} (hprevious : Ledger previous)
    (h : records.foldlM observe previous = .ok observed) :
    Observed previous records observed := by
  apply foldlM_history h
  · exact ⟨hprevious, .refl _, rfl, by simp, by simp, fun _ _ => .rfl⟩
  · intro past record ledger next _ hpast hstep
    have ⟨hlive, generation, hkey, _, hnext⟩ := observe_ok hstep
    constructor
    · exact hpast.agrees.observe hstep
    · exact hpast.grown.trans (extends_observe hstep)
    · rw [hnext]
      exact hpast.inactive
    · intro other hother
      cases mem_append.mp hother with
      | inl hbefore => exact hpast.live other hbefore
      | inr hhere =>
        rw [mem_singleton.mp hhere, ← hpast.inactive]
        exact hlive
    · intro other hother
      rw [hnext, map_append, mem_append]
      cases mem_append.mp hother with
      | inl hbefore => exact .inl (hpast.recorded other hbefore)
      | inr hhere =>
        right
        simp [mem_singleton.mp hhere, hkey]
    · intro event htransition
      have hother : event ≠ observationEvent record generation := by
        intro hsame
        rw [hsame] at htransition
        simp only [observationEvent] at htransition
        split at htransition <;> cases htransition
      rw [← hpast.transitions event htransition, hnext, mem_append, mem_singleton]
      exact or_iff_left hother

/-! ## Transitions and whole calls

What a directive must satisfy to be applied, what it changes, and what a call keeps of
the ledger. A source of a directive was active and is left for good.
-/

/-- A directive on its own: distinct sources and targets, at least one of each. -/
structure WellFormed (directive : IdentityTransitionDirective) : Prop where
  sources : directive.sourceKeys.Nodup
  targets : directive.targetKeys.Nodup
  disjoint : ∀ key ∈ directive.sourceKeys, key ∉ directive.targetKeys
  someSource : directive.sourceKeys ≠ []
  someTarget : directive.targetKeys ≠ []

structure Directed (accepted : List AcceptedIdentityRecord) (changed : Transitions)
    (directive : IdentityTransitionDirective) (next : Transitions) : Prop where
  wellFormed : WellFormed directive
  active : ∀ key ∈ directive.sourceKeys, key ∈ changed.active
  fresh : ∀ key ∈ directive.sourceKeys, key ∉ changed.transitionedSources
  accepted : ∀ key ∈ directive.targetKeys, key ∈ accepted.map (·.key)
  events : next.events = changed.events ++ [transitionEvent directive]
  inactive : next.inactive = changed.inactive ++ directive.sourceKeys
  activated : next.active =
    changed.active.filter (· ∉ directive.sourceKeys) ++ directive.targetKeys
  transitioned : next.transitionedSources = changed.transitionedSources ++ directive.sourceKeys

variable {db : CharacterDatabase} {directive : IdentityTransitionDirective}

theorem validateDirective_ok
    (h : validateDirective db directive = .ok ()) : WellFormed directive := by
  simp only [validateDirective, bind_eq_ok, refuse_eq_ok, exists_unit] at h
  have ⟨_, _, _, hsources, htargets, hdisjoint, hfewSources, hfewTargets, _⟩ := h
  have hatLeast : 1 ≤ directive.transition.expected.1 ∧ 1 ≤ directive.transition.expected.2 := by
    cases directive.transition <;> decide
  constructor
  · exact not_not.mp hsources
  · exact not_not.mp htargets
  · intro key hsource htarget
    exact hdisjoint ⟨key, hsource, htarget⟩
  · intro hnil
    rw [hnil, length_nil] at hfewSources
    omega
  · intro hnil
    rw [hnil, length_nil] at hfewTargets
    omega

variable {accepted : List AcceptedIdentityRecord}

theorem direct_ok {generations : List DurableIdentityGeneration} {changed next : Transitions}
    (h : direct db generations accepted changed directive = .ok next) :
    Directed accepted changed directive next := by
  simp only [direct, bind_eq_ok, refuse_eq_ok, exists_unit, pure_eq_ok, ne_eq, not_not] at h
  have ⟨hvalid, hsources, hrepeated, htargets, _, _, hnext⟩ := h
  rw [← hnext]
  constructor
  · exact validateDirective_ok hvalid
  · intro key hkey
    have habsent := filter_eq_nil_iff.mp hsources key hkey
    simpa using habsent
  · intro key hkey
    have habsent := filter_eq_nil_iff.mp hrepeated key hkey
    simpa using habsent
  · intro key hkey
    have habsent := filter_eq_nil_iff.mp htargets key hkey
    simpa only [not_not, decide_eq_true_eq] using habsent
  all_goals rfl

/-- The ledger while the directives of a call are applied. -/
def Transitions.over (changed : Transitions) (observed : IdentityLifecycleState) :
    IdentityLifecycleState :=
  { observed with events := changed.events, inactiveIdentityKeys := changed.inactive }

@[simp] theorem transitionEvent_isTransition (directive : IdentityTransitionDirective) :
    (transitionEvent directive).eventType.isTransition = true := by
  unfold transitionEvent
  cases directive.transition <;> rfl

@[simp] theorem mem_transitionEvent_sourceKeys
    {key : Text} : key ∈ (transitionEvent directive).sourceKeys ↔ key ∈ directive.sourceKeys := by
  simp [transitionEvent]

@[simp] theorem mem_transitionEvent_targetKeys
    {key : Text} : key ∈ (transitionEvent directive).targetKeys ↔ key ∈ directive.targetKeys := by
  simp [transitionEvent]

structure Changed (observed : IdentityLifecycleState) (past : List IdentityTransitionDirective)
    (changed : Transitions) : Prop where
  agrees : Ledger (changed.over observed)
  grown : Extends observed (changed.over observed)
  events : changed.events = observed.events ++ past.map transitionEvent
  inactive : changed.inactive = observed.inactiveIdentityKeys ++ past.flatMap (·.sourceKeys)
  transitioned : changed.transitionedSources = past.flatMap (·.sourceKeys)
  active : ∀ key ∈ changed.active, key ∉ observed.inactiveIdentityKeys

variable {observed : IdentityLifecycleState}

theorem Changed.source_live {past : List IdentityTransitionDirective} {changed next : Transitions}
    (hchanged : Changed observed past changed) (h : Directed accepted changed directive next) :
    ∀ key ∈ directive.sourceKeys, key ∉ changed.inactive := by
  intro key hkey hinactive
  rw [hchanged.inactive, ← hchanged.transitioned] at hinactive
  cases mem_append.mp hinactive with
  | inl hbefore => exact hchanged.active key (h.active key hkey) hbefore
  | inr hcall => exact h.fresh key hkey hcall

theorem Ledger.direct {changed next : Transitions} (hledger : Ledger (changed.over observed))
    (h : Directed accepted changed directive next)
    (hlive : ∀ key ∈ directive.sourceKeys, key ∉ changed.inactive) :
    Ledger (next.over observed) := by
  have hobservations : ∀ key eventType, eventType.isTransition = false →
      (next.over observed).observations key eventType =
        (changed.over observed).observations key eventType := by
    intro key eventType hobservation
    have hother : (transitionEvent directive).eventType ≠ eventType := by
      intro hsame
      have htransition := transitionEvent_isTransition directive
      rw [hsame, hobservation] at htransition
      cases htransition
    simp [IdentityLifecycleState.observations, Transitions.over, h.events, hother]
  constructor
  · exact hledger.numbered
  · intro key
    rw [hobservations key .created rfl]
    exact hledger.created key
  · intro key
    rw [hobservations key .observed rfl]
    exact hledger.observed key
  · intro key
    have hbefore := hledger.departed key
    have hdepartures : (next.over observed).departures key =
        (changed.over observed).departures key + if key ∈ directive.sourceKeys then 1 else 0 := by
      simp [IdentityLifecycleState.departures, Transitions.over, h.events]
    have hinactive : key ∈ (next.over observed).inactiveIdentityKeys ↔
        key ∈ changed.inactive ∨ key ∈ directive.sourceKeys := by
      show key ∈ next.inactive ↔ _
      rw [h.inactive, mem_append]
    rw [hdepartures, hbefore]
    show (if key ∈ changed.inactive then 1 else 0) + _ = _
    by_cases hsource : key ∈ directive.sourceKeys
    · have hkey := hlive key hsource
      simp [hinactive, hsource, hkey]
    · simp [hinactive, hsource]

variable {directives : List IdentityTransitionDirective}

theorem changed_all {generations : List DurableIdentityGeneration} {changed : Transitions}
    (hobserved : Ledger observed)
    (haccepted : ∀ key ∈ accepted.map (·.key), key ∉ observed.inactiveIdentityKeys)
    (h : directives.foldlM (direct db generations accepted) (openTransitions observed) =
      .ok changed) : Changed observed directives changed := by
  apply foldlM_history h
  · refine ⟨hobserved, .refl _, by simp [openTransitions], by simp [openTransitions], rfl, ?_⟩
    intro key hkey
    have hfilter := (mem_filter.mp hkey).2
    simpa using hfilter
  · intro past directive state next _ hpast hstep
    have hdirected := direct_ok hstep
    have hlive := hpast.source_live hdirected
    constructor
    · exact hpast.agrees.direct hdirected hlive
    · apply hpast.grown.trans
      constructor
      · exact .refl _
      · show state.events.Subperm next.events
        rw [hdirected.events]
        exact (sublist_append_left ..).subperm
      · intro key hkey
        show key ∈ next.inactive
        rw [hdirected.inactive]
        exact mem_append_left _ hkey
      · exact fun _ _ => .refl _
    · rw [hdirected.events, hpast.events]
      simp
    · rw [hdirected.inactive, hpast.inactive]
      simp
    · rw [hdirected.transitioned, hpast.transitioned]
      simp
    · intro key hkey
      rw [hdirected.activated] at hkey
      cases mem_append.mp hkey with
      | inl hkept => exact hpast.active key (mem_filter.mp hkept).1
      | inr htarget => exact haccepted key (hdirected.accepted key htarget)

/-! ### Calls -/

/-- A successful call: its observations, its directives, and the order it leaves. -/
structure Advanced (db : CharacterDatabase) (previous : IdentityLifecycleState)
    (acceptance : AcceptanceResult) (directives : List IdentityTransitionDirective)
    (next observed : IdentityLifecycleState) (changed : Transitions) : Prop where
  distinct : (acceptance.acceptedIdentities.map (·.key)).Nodup
  observations : (sortedBy (fun first second => compare first.key second.key)
    acceptance.acceptedIdentities).foldlM observe previous = .ok observed
  transitions : directives.foldlM
    (direct db observed.generations acceptance.acceptedIdentities) (openTransitions observed) =
      .ok changed
  reordered : Reordered (changed.over observed) next

theorem advance_ok {previous next : IdentityLifecycleState} {acceptance : AcceptanceResult}
    (h : advanceIdentityLifecycle db previous acceptance directives = .ok next) :
    ∃ observed changed, Advanced db previous acceptance directives next observed changed := by
  simp only [advanceIdentityLifecycle, bind_eq_ok, refuse_eq_ok, exists_unit, pure_eq_ok,
    not_not] at h
  have ⟨hdistinct, observed, hobserved, changed, hchanged, hnext⟩ := h
  refine ⟨observed, changed, hdistinct, hobserved, hchanged, ?_⟩
  rw [← hnext]
  exact ⟨sortedBy_perm .., sortedBy_perm .., fun key => mem_sortedSet⟩

section

variable {previous next observed : IdentityLifecycleState} {acceptance : AcceptanceResult}
  {directives : List IdentityTransitionDirective} {changed : Transitions}

theorem Advanced.observing (hprevious : Ledger previous)
    (h : Advanced db previous acceptance directives next observed changed) :
    Observed previous acceptance.acceptedIdentities observed := by
  have hsorted := observed_all hprevious h.observations
  exact ⟨hsorted.agrees, hsorted.grown, hsorted.inactive,
    fun record hrecord => hsorted.live record (mem_sortedBy.mpr hrecord),
    fun record hrecord => hsorted.recorded record (mem_sortedBy.mpr hrecord),
    hsorted.transitions⟩

theorem Advanced.accepted_live (hprevious : Ledger previous)
    (h : Advanced db previous acceptance directives next observed changed) :
    ∀ key ∈ acceptance.acceptedIdentities.map (·.key), key ∉ observed.inactiveIdentityKeys := by
  have hobserved := h.observing hprevious
  intro key hkey
  have ⟨record, hrecord, hsame⟩ := mem_map.mp hkey
  rw [hobserved.inactive, ← hsame]
  exact hobserved.live record hrecord

theorem Advanced.directing (hprevious : Ledger previous)
    (h : Advanced db previous acceptance directives next observed changed) :
    Changed observed directives changed :=
  changed_all (h.observing hprevious).agrees (h.accepted_live hprevious) h.transitions

end

theorem advance_ledger {previous next : IdentityLifecycleState} {acceptance : AcceptanceResult}
    (hprevious : Ledger previous)
    (h : advanceIdentityLifecycle db previous acceptance directives = .ok next) :
    Ledger next ∧ Extends previous next := by
  have ⟨observed, changed, hadvanced⟩ := advance_ok h
  have hobserved := hadvanced.observing hprevious
  have hchanged := hadvanced.directing hprevious
  constructor
  · exact hchanged.agrees.reordered hadvanced.reordered
  · exact hobserved.grown.trans (hchanged.grown.trans hadvanced.reordered.extends)

structure LifecycleCall where
  acceptance : AcceptanceResult
  directives : List IdentityTransitionDirective := []
  deriving DecidableEq, Repr

/-- The state a caller holds after a call: the returned one, or the one it passed if the
call raised. -/
def advanced (db : CharacterDatabase) (state : IdentityLifecycleState) (call : LifecycleCall) :
    IdentityLifecycleState :=
  match advanceIdentityLifecycle db state call.acceptance call.directives with
  | .ok next => next
  | .error _ => state

theorem advanced_ledger {state : IdentityLifecycleState} (hstate : Ledger state)
    (call : LifecycleCall) :
    Ledger (advanced db state call) ∧ Extends state (advanced db state call) := by
  unfold advanced
  cases hcall : advanceIdentityLifecycle db state call.acceptance call.directives with
  | ok next => exact advance_ledger hstate hcall
  | error _ => exact ⟨hstate, .refl state⟩

theorem after_ledger (db : CharacterDatabase) (run : List LifecycleCall) :
    Ledger (after (advanced db) {} run) := by
  apply after_history fun _ state => Ledger state
  · exact Ledger.empty
  · exact fun _ call hpast => (advanced_ledger hpast call).1

theorem after_extends (db : CharacterDatabase) (before later : List LifecycleCall) :
    Extends (after (advanced db) {} before) (after (advanced db) {} (before ++ later)) := by
  rw [after_append]
  apply after_history fun _ state => Extends (after (advanced db) {} before) state
  · exact .refl _
  · intro past call hpast
    have hledger := after_ledger db (before ++ past)
    rw [after_append] at hledger
    exact hpast.trans (advanced_ledger hledger call).2

/-- The ledger after any run of calls from the empty state, and in any later state of it. -/
theorem advance_runs (db : CharacterDatabase) (before later : List LifecycleCall) :
    let state := after (advanced db) {} before
    let next := after (advanced db) {} (before ++ later)
    Ledger state ∧ validateGenerations state = .ok () ∧ Extends state next ∧
      ∀ call error, advanceIdentityLifecycle db state call.acceptance call.directives =
        .error error → advanced db state call = state := by
  have hledger := after_ledger db before
  refine ⟨hledger, hledger.validateGenerations_ok, after_extends db before later, ?_⟩
  intro call error hcall
  simp only [advanced, hcall]

/-! ## What a ledger records -/

def DurableIdentityGeneration.toRecord (generation : DurableIdentityGeneration) :
    AcceptedIdentityRecord where
  key := generation.identityKey
  candidateKeys := generation.candidateKeys
  targetKeys := generation.targetKeys
  reviews := generation.acceptanceReviews
  evidence := generation.evidence
  conflictOverridden := generation.conflictOverridden

/-- The ledger holds these records and directives, each once, and no others. -/
structure Recorded (records : List AcceptedIdentityRecord)
    (directives : List IdentityTransitionDirective) (state : IdentityLifecycleState) : Prop where
  generations : (state.generations.map (·.toRecord)).Perm records
  transitions : (state.events.filter (·.eventType.isTransition)).Perm
    (directives.map transitionEvent)
  inactive : ∀ key, key ∈ state.inactiveIdentityKeys ↔
    ∃ directive ∈ directives, key ∈ directive.sourceKeys

/-- The calls of a run that do not raise. -/
def acceptedCalls (db : CharacterDatabase) (state : IdentityLifecycleState) :
    List LifecycleCall → List LifecycleCall
  | [] => []
  | call :: later =>
    let calls := acceptedCalls db (advanced db state call) later
    if (advanceIdentityLifecycle db state call.acceptance call.directives).toBool then
      call :: calls
    else calls

section

variable {db : CharacterDatabase} {records : List AcceptedIdentityRecord}
  {directives : List IdentityTransitionDirective} {state next : IdentityLifecycleState}

theorem Recorded.observe {record : AcceptedIdentityRecord} (h : Recorded records directives state)
    (hnext : Discovery.observe state record = .ok next) :
    Recorded (records ++ [record]) directives next := by
  simp only [Discovery.observe, durableGeneration, bind_eq_ok, refuse_eq_ok, exists_unit,
    pure_eq_ok] at hnext
  rcases hnext with ⟨_, generation, ⟨time, _, rfl⟩, rfl⟩
  have hevent : ∀ generation : DurableIdentityGeneration,
      (observationEvent record generation).eventType.isTransition = false := by
    intro generation
    unfold observationEvent
    dsimp only
    split <;> rfl
  refine ⟨?_, ?_, h.inactive⟩
  · rw [map_append]
    exact h.generations.append_right _
  · rw [filter_append, filter_singleton, hevent]
    simpa using h.transitions

theorem Recorded.observeAll {items : List AcceptedIdentityRecord}
    (h : Recorded records directives state)
    (hrun : items.foldlM Discovery.observe state = .ok next) :
    Recorded (records ++ items) directives next := by
  apply foldlM_history hrun
  · rwa [append_nil]
  · intro past record ledger next _ hpast hstep
    rw [← append_assoc]
    exact hpast.observe hstep

theorem Recorded.direct {observed : IdentityLifecycleState} {changed changed' : Transitions}
    {generations : List DurableIdentityGeneration} {accepted : List AcceptedIdentityRecord}
    {directive : IdentityTransitionDirective}
    (h : Recorded records directives (changed.over observed))
    (hnext : Discovery.direct db generations accepted changed directive = .ok changed') :
    Recorded records (directives ++ [directive]) (changed'.over observed) := by
  have hdirected := direct_ok hnext
  refine ⟨h.generations, ?_, fun key => ?_⟩
  · show (filter _ changed'.events).Perm _
    rw [hdirected.events, filter_append, map_append, filter_singleton,
      transitionEvent_isTransition]
    exact h.transitions.append_right _
  · show key ∈ changed'.inactive ↔ _
    have hbefore : key ∈ changed.inactive ↔ _ := h.inactive key
    rw [hdirected.inactive, mem_append, hbefore]
    simp [or_and_right, exists_or]

theorem Recorded.directAll {observed : IdentityLifecycleState} {changed changed' : Transitions}
    {generations : List DurableIdentityGeneration} {accepted : List AcceptedIdentityRecord}
    {more : List IdentityTransitionDirective}
    (h : Recorded records directives (changed.over observed))
    (hrun : more.foldlM (Discovery.direct db generations accepted) changed = .ok changed') :
    Recorded records (directives ++ more) (changed'.over observed) := by
  apply foldlM_history hrun
  · rwa [append_nil]
  · intro past directive changed next _ hpast hstep
    rw [← append_assoc]
    exact hpast.direct hstep

theorem Recorded.advance {acceptance : AcceptanceResult}
    {more : List IdentityTransitionDirective} (h : Recorded records directives state)
    (hnext : advanceIdentityLifecycle db state acceptance more = .ok next) :
    Recorded (records ++ acceptance.acceptedIdentities) (directives ++ more) next := by
  rcases advance_ok hnext with ⟨observed, changed, _, hobservations, htransitions, hsame⟩
  have hobserved := h.observeAll hobservations
  have hopened : Recorded (records ++ acceptance.acceptedIdentities) directives
      ((openTransitions observed).over observed) :=
    ⟨hobserved.generations.trans ((sortedBy_perm ..).append_left _), hobserved.transitions,
      hobserved.inactive⟩
  have hchanged := hopened.directAll htransitions
  exact ⟨(hsame.generations.map _).trans hchanged.generations,
    (hsame.events.filter _).trans hchanged.transitions,
    fun key => (hsame.inactive key).trans (hchanged.inactive key)⟩

theorem Recorded.afterAll (h : Recorded records directives state) (run : List LifecycleCall) :
    Recorded (records ++ (acceptedCalls db state run).flatMap (·.acceptance.acceptedIdentities))
      (directives ++ (acceptedCalls db state run).flatMap (·.directives))
      (after (advanced db) state run) := by
  induction run generalizing records directives state with
  | nil => simpa [acceptedCalls] using h
  | cons call later ih =>
    cases hresult : advanceIdentityLifecycle db state call.acceptance call.directives with
    | ok next =>
      have hlater := ih (h.advance hresult)
      simpa [acceptedCalls, advanced, hresult, Except.toBool] using hlater
    | error error =>
      have hlater := ih h
      simpa [acceptedCalls, advanced, hresult, Except.toBool] using hlater

end

/-- After any run the ledger holds the accepted records and the directives of the calls that
do not raise, each once, and no others. -/
theorem after_recorded (db : CharacterDatabase) (run : List LifecycleCall) :
    Recorded ((acceptedCalls db {} run).flatMap (·.acceptance.acceptedIdentities))
      ((acceptedCalls db {} run).flatMap (·.directives)) (after (advanced db) {} run) := by
  have hempty : Recorded [] [] {} := ⟨.nil, .nil, by simp⟩
  exact hempty.afterAll run

end TwinForge.Discovery
