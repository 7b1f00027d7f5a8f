import Mathlib.Data.List.Basic
import Mathlib.Logic.Relation

/-! # Succession of keys

A log of handovers, each from some keys to others. Where no handover goes to a key that
left before or with it, following the log never returns, and every key that left is
followed by one that has not.
-/

namespace TwinForge

open Relation List

structure Handover (Key : Type) where
  sources : List Key
  targets : List Key

namespace Handover

variable {Key : Type} {log rest : List (Handover Key)} {step : Handover Key}
  {source target key : Key}

def Succeeds (log : List (Handover Key)) (source target : Key) : Prop :=
  ∃ step ∈ log, source ∈ step.sources ∧ target ∈ step.targets

def Left (log : List (Handover Key)) (key : Key) : Prop := ∃ step ∈ log, key ∈ step.sources

/-- No handover leads to a key that left with it or before it. -/
def Forward : List (Handover Key) → Prop
  | [] => True
  | step :: rest => (∀ later ∈ step :: rest, ∀ key ∈ later.targets, key ∉ step.sources) ∧
      Forward rest

theorem forward_append {earlier later : List (Handover Key)} :
    Forward (earlier ++ later) ↔ Forward earlier ∧ Forward later ∧
      ∀ step ∈ later, ∀ key ∈ step.targets, ¬ Left earlier key := by
  induction earlier with
  | nil => simp [Forward, Left]
  | cons step earlier ih =>
    simp only [cons_append, Forward, ih, mem_cons, mem_append, Left]
    grind

theorem Succeeds.mono (h : Succeeds rest source target) :
    Succeeds (step :: rest) source target := by
  have ⟨found, hfound, hends⟩ := h
  exact ⟨found, mem_cons_of_mem step hfound, hends⟩

theorem not_sources_of_succeeds (hforward : Forward (step :: rest))
    (h : Succeeds (step :: rest) source target) : target ∉ step.sources := by
  have ⟨found, hfound, _, htarget⟩ := h
  exact hforward.1 found hfound target htarget

theorem Succeeds.later (h : Succeeds (step :: rest) source target)
    (hsource : source ∉ step.sources) : Succeeds rest source target := by
  have ⟨found, hfound, hleft, htarget⟩ := h
  cases mem_cons.mp hfound with
  | inl hhere => exact absurd (hhere ▸ hleft) hsource
  | inr hlater => exact ⟨found, hlater, hleft, htarget⟩

/-- A walk from a key the first handover did not leave never uses that handover. -/
theorem transGen_rest (hforward : Forward (step :: rest))
    (h : TransGen (Succeeds (step :: rest)) source target) (hsource : source ∉ step.sources) :
    TransGen (Succeeds rest) source target := by
  induction h with
  | single hstep => exact .single (hstep.later hsource)
  | tail hwalk hstep ih =>
    have ⟨_, _, hlast⟩ := TransGen.tail'_iff.mp hwalk
    have hmiddle := not_sources_of_succeeds hforward hlast
    exact ih.tail (hstep.later hmiddle)

theorem Forward.acyclic (hforward : Forward log) (key : Key) :
    ¬ TransGen (Succeeds log) key key := by
  induction log with
  | nil =>
    intro h
    have ⟨_, hstep, _⟩ := TransGen.head'_iff.mp h
    have ⟨_, hnone, _⟩ := hstep
    exact absurd hnone not_mem_nil
  | cons step rest ih =>
    intro h
    have ⟨_, _, hlast⟩ := TransGen.tail'_iff.mp h
    have hkey := not_sources_of_succeeds hforward hlast
    exact ih hforward.2 (transGen_rest hforward h hkey)

theorem Forward.reaches (hforward : Forward log) (htargets : ∀ step ∈ log, step.targets ≠ [])
    (hleft : Left log key) :
    ∃ final, TransGen (Succeeds log) key final ∧ ¬ Left log final ∧
      ∃ step ∈ log, final ∈ step.targets := by
  induction log generalizing key with
  | nil =>
    have ⟨_, hnone, _⟩ := hleft
    exact absurd hnone not_mem_nil
  | cons step rest ih =>
    have hlater : ∀ {found : Key}, Left rest found →
        ∃ final, TransGen (Succeeds (step :: rest)) found final ∧ ¬ Left (step :: rest) final ∧
          ∃ later ∈ step :: rest, final ∈ later.targets := by
      intro found hfound
      have ⟨final, hwalk, hstays, later, hmember, htarget⟩ := ih hforward.2
        (fun later hmember => htargets later (mem_cons_of_mem step hmember)) hfound
      refine ⟨final, hwalk.lift id fun _ _ => Succeeds.mono, ?_,
        later, mem_cons_of_mem step hmember, htarget⟩
      intro hleaves
      have ⟨other, hother, hsource⟩ := hleaves
      cases mem_cons.mp hother with
      | inl hhere =>
        exact hforward.1 later (mem_cons_of_mem step hmember) final htarget
          (hhere ▸ hsource)
      | inr hrest => exact hstays ⟨other, hrest, hsource⟩
    have ⟨first, hfirst, hsource⟩ := hleft
    cases mem_cons.mp hfirst with
    | inr hrest => exact hlater ⟨first, hrest, hsource⟩
    | inl hhere =>
      have ⟨target, htarget⟩ :=
        exists_mem_of_ne_nil _ (htargets step (mem_cons_self ..))
      have hstep : Succeeds (step :: rest) key target :=
        ⟨step, mem_cons_self .., hhere ▸ hsource, htarget⟩
      by_cases hleaves : Left rest target
      · have ⟨final, hwalk, hfinal⟩ := hlater hleaves
        exact ⟨final, .head hstep hwalk, hfinal⟩
      · refine ⟨target, .single hstep, ?_, step, mem_cons_self .., htarget⟩
        intro hagain
        have ⟨other, hother, hsources⟩ := hagain
        cases mem_cons.mp hother with
        | inl hsame =>
          exact hforward.1 step (mem_cons_self ..) target htarget (hsame ▸ hsources)
        | inr hrest => exact hleaves ⟨other, hrest, hsources⟩

end Handover

end TwinForge
