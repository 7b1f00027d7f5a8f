import Mathlib.Data.List.Basic

/-! # Runs and delimiters

A list written as runs with delimiters between them is taken apart again at the
delimiters, as long as no run holds one.
-/

namespace TwinForge.Delimiters

open List

variable {A : Type*}

theorem run_unique {inRun : A → Prop} {first second firstRest secondRest : List A}
    (hfirst : ∀ a ∈ first, inRun a) (hsecond : ∀ a ∈ second, inRun a)
    (hfirstRest : ∀ a ∈ firstRest.head?, ¬ inRun a)
    (hsecondRest : ∀ a ∈ secondRest.head?, ¬ inRun a)
    (h : first ++ firstRest = second ++ secondRest) :
    first = second ∧ firstRest = secondRest := by
  induction first generalizing second with
  | nil =>
    cases second with
    | nil => exact ⟨rfl, h⟩
    | cons b second =>
      have hhead : b ∈ firstRest.head? := by
        rw [nil_append] at h
        simp [h]
      exact absurd (hsecond b (by simp)) (hfirstRest b hhead)
  | cons a first ih =>
    cases second with
    | nil =>
      have hhead : a ∈ secondRest.head? := by
        rw [nil_append] at h
        simp [← h]
      exact absurd (hfirst a (by simp)) (hsecondRest a hhead)
    | cons b second =>
      rw [cons_append, cons_append, List.cons.injEq] at h
      have hrest := ih (fun c hc => hfirst c (by simp [hc]))
        (fun c hc => hsecond c (by simp [hc])) h.2
      exact ⟨by rw [h.1, hrest.1], hrest.2⟩

variable {delimiter : A} {first second : List A}

theorem split_iff {firstRest secondRest : List A} :
    first ++ delimiter :: firstRest = second ++ delimiter :: secondRest ↔
      (first = second ∧ firstRest = secondRest) ∨
      (∃ between, second = first ++ delimiter :: between ∧
        firstRest = between ++ delimiter :: secondRest) ∨
      ∃ between, first = second ++ delimiter :: between ∧
        secondRest = between ++ delimiter :: firstRest := by
  constructor
  · intro h
    obtain ⟨cut, hsecond, hrest⟩ | ⟨cut, hfirst, hrest⟩ := append_eq_append_iff.mp h
    · cases cut with
      | nil =>
        rw [nil_append, List.cons.injEq] at hrest
        exact .inl ⟨by rw [hsecond, append_nil], hrest.2⟩
      | cons c cut =>
        rw [cons_append, List.cons.injEq] at hrest
        obtain ⟨rfl, hrest⟩ := hrest
        exact .inr (.inl ⟨cut, hsecond, hrest⟩)
    · cases cut with
      | nil =>
        rw [nil_append, List.cons.injEq] at hrest
        exact .inl ⟨by rw [hfirst, append_nil], hrest.2.symm⟩
      | cons c cut =>
        rw [cons_append, List.cons.injEq] at hrest
        obtain ⟨rfl, hrest⟩ := hrest
        exact .inr (.inr ⟨cut, hfirst, hrest⟩)
  · intro h
    obtain ⟨rfl, rfl⟩ | ⟨between, rfl, rfl⟩ | ⟨between, rfl, rfl⟩ := h
    · rfl
    · rw [append_assoc, cons_append]
    · rw [append_assoc, cons_append]

variable {rest front : List A}

theorem after_run {run back : List A} (hrun : delimiter ∉ run)
    (h : run ++ rest = front ++ delimiter :: back) :
    ∃ remaining, front = run ++ remaining ∧ rest = remaining ++ delimiter :: back := by
  rcases append_eq_append_iff.mp h with ⟨remaining, hfront, hrest⟩ | ⟨cut, hcut, hback⟩
  · exact ⟨remaining, hfront, hrest⟩
  · cases cut with
    | nil =>
      rw [append_nil] at hcut
      exact ⟨[], by rw [hcut, append_nil], hback.symm⟩
    | cons c cut =>
      have hc : c = delimiter := by
        rw [cons_append, List.cons.injEq] at hback
        exact hback.1.symm
      rw [hcut, hc] at hrun
      simp at hrun

theorem last_delimiter {back tail : List A} (hback : delimiter ∉ back)
    (htail : delimiter ∉ tail) (h : front ++ delimiter :: back = rest ++ delimiter :: tail) :
    front = rest ∧ back = tail := by
  rcases append_eq_append_iff.mp h with ⟨cut, hcut, hsame⟩ | ⟨cut, hcut, hsame⟩
  · cases cut with
    | nil => simpa [hcut] using hsame
    | cons c cut =>
      rw [cons_append, List.cons.injEq] at hsame
      rw [hsame.2] at hback
      simp at hback
  · cases cut with
    | nil => simpa [hcut] using hsame.symm
    | cons c cut =>
      rw [cons_append, List.cons.injEq] at hsame
      rw [hsame.2] at htail
      simp at htail

theorem pair_within {cut : List A} (hhead : delimiter ∉ second.head?) (hfront : front = rest ++ cut)
    (hback : delimiter :: delimiter :: second = cut ++ delimiter :: delimiter :: first) :
    (front = rest ∧ second = first) ∨ ∃ between,
      front = rest ++ delimiter :: delimiter :: between ∧
      second = between ++ delimiter :: delimiter :: first := by
  match cut, hfront, hback with
  | [], hfront, hback => exact .inl ⟨by simpa using hfront, by simpa using hback⟩
  | [c], hfront, hback =>
    simp only [cons_append, nil_append, List.cons.injEq, true_and] at hback
    simp [hback.2] at hhead
  | c :: d :: between, hfront, hback =>
    simp only [cons_append, List.cons.injEq] at hback
    obtain ⟨hc, hd, hsecond⟩ := hback
    subst hc hd
    exact .inr ⟨between, hfront, hsecond⟩

/-- Where two lists with a doubled delimiter agree, the delimiters stand in one place, or the
earlier pair in the front of the one list and the later pair in the back of the other. -/
theorem pair_split (hfirst : delimiter ∉ first.head?) (hsecond : delimiter ∉ second.head?)
    (h : front ++ delimiter :: delimiter :: first = rest ++ delimiter :: delimiter :: second) :
    (front = rest ∧ first = second) ∨
    (∃ between, front = rest ++ delimiter :: delimiter :: between ∧
      second = between ++ delimiter :: delimiter :: first) ∨
    ∃ between, rest = front ++ delimiter :: delimiter :: between ∧
      first = between ++ delimiter :: delimiter :: second := by
  rcases append_eq_append_iff.mp h with ⟨cut, hcut, hback⟩ | ⟨cut, hcut, hback⟩
  · rcases pair_within hfirst hcut hback with ⟨hsame, heq⟩ | hlater
    · exact .inl ⟨hsame.symm, heq⟩
    · exact .inr (.inr hlater)
  · rcases pair_within hsecond hcut hback with ⟨hsame, heq⟩ | hearlier
    · exact .inl ⟨hsame, heq.symm⟩
    · exact .inr (.inl hearlier)

end TwinForge.Delimiters
