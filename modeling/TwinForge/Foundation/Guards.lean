import Mathlib.Data.List.Forall2
import Mathlib.Data.List.Induction

/-! # Guards of a computation that may fail

A guard refuses with an error or lets the computation go on. What a computation has
passed is read off from its success, and what each step of a loop that may fail
preserves, a loop that succeeds preserves.
-/

namespace TwinForge.Guards

open List

variable {Failure A B State Item : Type}

/-- `if condition: raise error`. -/
def refuse (condition : Prop) [Decidable condition] (error : Failure) : Except Failure Unit :=
  if condition then .error error else .ok ()

@[simp] theorem refuse_eq_ok {condition : Prop} [Decidable condition] {error : Failure}
    {done : Unit} : (refuse condition error = .ok done) = ¬ condition := by
  unfold refuse
  split <;> simp [*]

@[simp] theorem bind_eq_ok {first : Except Failure A} {next : A → Except Failure B} {b : B} :
    ((first >>= next) = .ok b) = ∃ a, first = .ok a ∧ next a = .ok b := by
  cases first <;> simp [bind, Except.bind]

@[simp] theorem pure_eq_ok {a b : A} : ((pure a : Except Failure A) = .ok b) = (a = b) := by
  simp [pure, Except.pure]

theorem exists_returned {first : Except Failure A} {f : A → B} :
    (∃ b, (do let a ← first; return f a) = .ok b) ↔ ∃ a, first = .ok a := by
  simp only [bind_eq_ok, pure_eq_ok]
  exact ⟨fun ⟨_, a, h, _⟩ => ⟨a, h⟩, fun ⟨a, h⟩ => ⟨_, a, h, rfl⟩⟩

@[simp] theorem exists_unit {passed : Unit → Prop} : (∃ done, passed done) = passed () :=
  propext ⟨fun ⟨(), h⟩ => h, fun h => ⟨(), h⟩⟩

theorem map_eq_ok {read : Except Failure A} {f : A → B} {b : B} :
    read.map f = .ok b ↔ ∃ a, read = .ok a ∧ f a = b := by
  cases read <;> simp [Except.map]

@[simp] theorem mapError_eq_ok {Other : Type} {read : Except Failure A} {f : Failure → Other} {a : A} :
    (read.mapError f = .ok a) = (read = .ok a) := by
  cases read <;> simp [Except.mapError]

theorem forM_eq_ok {check : Item → Except Failure Unit} {items : List Item} :
    items.forM check = .ok () ↔ ∀ item ∈ items, check item = .ok () := by
  induction items with
  | nil => simp
  | cons item items ih =>
    show (check item >>= fun _ => items.forM check) = .ok () ↔ _
    rw [bind_eq_ok, forall_mem_cons, ← ih, exists_unit]

theorem mapM_ok {read : A → Except Failure B} {relation : A → B → Prop} {items : List A}
    (h : ∀ item ∈ items, ∃ result, read item = .ok result ∧ relation item result) :
    ∃ results, items.mapM read = .ok results ∧ List.Forall₂ relation items results := by
  induction items with
  | nil => exact ⟨[], rfl, .nil⟩
  | cons item items ih =>
    have ⟨result, hread, hrelation⟩ := h item (mem_cons_self ..)
    have ⟨results, hreads, hrelations⟩ :=
      ih fun other hother => h other (mem_cons_of_mem item hother)
    refine ⟨result :: results, ?_, .cons hrelation hrelations⟩
    rw [mapM_cons]
    simp only [bind_eq_ok, pure_eq_ok]
    exact ⟨result, hread, results, hreads, rfl⟩

variable {items : List A} {results : List B}

theorem mapM_eq_ok {read : A → Except Failure B} :
    items.mapM read = .ok results ↔
      List.Forall₂ (fun item result => read item = .ok result) items results := by
  induction items generalizing results with
  | nil => simp [@eq_comm _ _ results]
  | cons item items ih =>
    simp only [mapM_cons, bind_eq_ok, pure_eq_ok, ih, forall₂_cons_left_iff,
      @eq_comm _ _ results]
    constructor
    · intro ⟨result, hread, rest, hrest, hresults⟩
      exact ⟨result, rest, hread, hrest, hresults⟩
    · intro ⟨result, rest, hread, hrest, hresults⟩
      exact ⟨result, hread, rest, hrest, hresults⟩

theorem exists_mapM_eq_ok {read : A → Except Failure B} :
    (∃ results, items.mapM read = .ok results) ↔ ∀ item ∈ items, ∃ result, read item = .ok result := by
  induction items with
  | nil => simp
  | cons item items ih =>
    rw [forall_mem_cons, ← ih]
    simp only [mapM_cons, bind_eq_ok, pure_eq_ok]
    constructor
    · intro ⟨_, result, hread, results, hresults, _⟩
      exact ⟨⟨result, hread⟩, results, hresults⟩
    · intro ⟨⟨result, hread⟩, results, hresults⟩
      exact ⟨_, result, hread, results, hresults, rfl⟩

theorem mapM_beside {read : A → Option B} (h : items.mapM read = some results) :
    List.Forall₂ (fun item result => read item = some result) items results := by
  induction items generalizing results with
  | nil =>
    have hnil : results = [] := by simpa using h.symm
    rw [hnil]
    exact .nil
  | cons item items ih =>
    simp only [mapM_cons, Option.pure_def, Option.bind_eq_bind, Option.bind_eq_some_iff,
      Option.some.injEq] at h
    obtain ⟨result, hread, rest, hrest, rfl⟩ := h
    exact .cons hread (ih hrest)

theorem exists_item {relation : A → B → Prop} {result : B}
    (h : List.Forall₂ relation items results) (hresult : result ∈ results) :
    ∃ item ∈ items, relation item result := by
  induction h with
  | nil => exact absurd hresult not_mem_nil
  | cons hhere _ ih =>
    cases mem_cons.mp hresult with
    | inl hsame => exact ⟨_, mem_cons_self .., hsame ▸ hhere⟩
    | inr hrest =>
      have ⟨item, hitem, hrelation⟩ := ih hrest
      exact ⟨item, mem_cons_of_mem _ hitem, hrelation⟩

section

variable {step : State → Item → Except Failure State} {start : State}

theorem foldlM_cons_ok {item : Item} {items : List Item} {result : State} :
    (item :: items).foldlM step start = .ok result ↔
      ∃ next, step start item = .ok next ∧ items.foldlM step next = .ok result := by
  rw [foldlM_cons, bind_eq_ok]

theorem foldlM_append_ok {first second : List Item} {result : State} :
    (first ++ second).foldlM step start = .ok result ↔
      ∃ middle, first.foldlM step start = .ok middle ∧
        second.foldlM step middle = .ok result := by
  rw [foldlM_append, bind_eq_ok]

/-- What one step keeps, whatever the items passed so far, a whole pass has at its end. -/
theorem foldlM_history {relation : List Item → State → Prop} {finish : State}
    {items : List Item} (hrun : items.foldlM step start = .ok finish) (hstart : relation [] start)
    (hstep : ∀ past item state next, past ++ [item] <+: items → relation past state →
      step state item = .ok next → relation (past ++ [item]) next) :
    relation items finish := by
  induction items using reverseRecOn generalizing finish with
  | nil =>
    have hsame : start = finish := by simpa using hrun
    rw [← hsame]
    exact hstart
  | append_singleton past item ih =>
    have ⟨state, hpast, hlast⟩ := foldlM_append_ok.mp hrun
    have hitem : step state item = .ok finish := by
      simpa using hlast
    have hkept : relation past state :=
      ih hpast fun earlier other before next hinitial =>
        hstep earlier other before next (hinitial.trans (prefix_append past [item]))
    exact hstep past item state finish prefix_rfl hkept hitem

end

end TwinForge.Guards
