import Mathlib.Data.List.Basic
import Mathlib.Data.List.Perm.Basic

/-! # Updates of rows by key

Every row has a key, and an update finds the last row of its key. The outcome does not
depend on the order of updates that commute, and on the order of the rows only as far as
rows of one key differ.
-/

namespace TwinForge.KeyedUpdates

open List

variable {index : Nat}

theorem modify_middle {Item : Type} (change : Item → Item) (before : List Item)
    {items : List Item} (after : List Item) (h : index < items.length) :
    (before ++ (items ++ after)).modify (before.length + index) change =
      before ++ (items.modify index change ++ after) := by
  induction before with
  | nil =>
    induction items generalizing index with
    | nil => simp at h
    | cons item items ih =>
      cases index with
      | zero => simp
      | succ index =>
        have htail := ih (Nat.lt_of_succ_lt_succ h)
        simp only [nil_append, length_nil, Nat.zero_add] at htail ⊢
        rw [cons_append, modify_succ_cons, htail]
        rfl
  | cons first before ih =>
    rw [cons_append, length_cons, Nat.add_right_comm, modify_succ_cons, ih]
    rfl

variable {Row Update Out Key : Type} [DecidableEq Key] {rows : List Row}

section

variable (rowKey : Row → Key)

def lastIndex (key : Key) : List Row → Option Nat
  | [] => none
  | row :: rows =>
    match lastIndex key rows with
    | some index => some (index + 1)
    | none => if rowKey row = key then some 0 else none

theorem lastIndex_eq_none {key : Key} :
    lastIndex rowKey key rows = none ↔ ∀ row ∈ rows, rowKey row ≠ key := by
  induction rows with
  | nil => simp [lastIndex]
  | cons row rows ih =>
    rw [forall_mem_cons, ← ih]
    cases hlast : lastIndex rowKey key rows <;> simp [lastIndex, hlast]

theorem lastIndex_eq_some {key : Key} (h : lastIndex rowKey key rows = some index) :
    ∃ before row after, rows = before ++ row :: after ∧ before.length = index ∧
      rowKey row = key ∧ ∀ other ∈ after, rowKey other ≠ key := by
  induction rows generalizing index with
  | nil => simp [lastIndex] at h
  | cons row rows ih =>
    cases hlast : lastIndex rowKey key rows with
    | none =>
      simp only [lastIndex, hlast] at h
      by_cases hkey : rowKey row = key
      · rw [if_pos hkey] at h
        cases h
        exact ⟨[], row, rows, rfl, rfl, hkey, (lastIndex_eq_none rowKey).mp hlast⟩
      · simp [hkey] at h
    | some position =>
      simp only [lastIndex, hlast, Option.some.injEq] at h
      obtain ⟨before, last, after, hrows, hlength, hkey, hafter⟩ := ih hlast
      exact ⟨row :: before, last, after, by rw [hrows]; rfl, by simp [hlength, ← h],
        hkey, hafter⟩

end

section

variable (rowKey : Row → Key) (updateKey : Update → Key) (value : Row → Out)
  (apply : Update → Out → Out)

def updatedRow (updates : List Update) (row : Row) : Out :=
  (updates.filter fun update => updateKey update = rowKey row).foldl
    (fun out update => apply update out) (value row)

/-- The values of the rows after the updates. -/
def updated (updates : List Update) : List Row → List Out
  | [] => []
  | row :: rows =>
    (if ∃ other ∈ rows, rowKey other = rowKey row then value row
      else updatedRow rowKey updateKey value apply updates row) :: updated updates rows

@[simp] theorem updated_none (rows : List Row) :
    updated rowKey updateKey value apply [] rows = rows.map value := by
  induction rows with
  | nil => rfl
  | cons row rows ih => simp [updated, updatedRow, ih]

theorem length_updated (updates : List Update) (rows : List Row) :
    (updated rowKey updateKey value apply updates rows).length = rows.length := by
  induction rows with
  | nil => rfl
  | cons row rows ih => simp [updated, ih]

variable {updates : List Update} {update : Update} {row : Row}

theorem updatedRow_append_other (h : updateKey update ≠ rowKey row) :
    updatedRow rowKey updateKey value apply (updates ++ [update]) row =
      updatedRow rowKey updateKey value apply updates row := by
  simp [updatedRow, h]

theorem updatedRow_append_same (h : updateKey update = rowKey row) :
    updatedRow rowKey updateKey value apply (updates ++ [update]) row =
      apply update (updatedRow rowKey updateKey value apply updates row) := by
  simp [updatedRow, h]

theorem updated_append_missed (h : ∀ row ∈ rows, rowKey row ≠ updateKey update) :
    updated rowKey updateKey value apply (updates ++ [update]) rows =
      updated rowKey updateKey value apply updates rows := by
  induction rows with
  | nil => rfl
  | cons row rows ih =>
    rw [forall_mem_cons] at h
    simp only [updated, ih h.2,
      updatedRow_append_other rowKey updateKey value apply (Ne.symm h.1)]

theorem updated_append (h : lastIndex rowKey (updateKey update) rows = some index) :
    updated rowKey updateKey value apply (updates ++ [update]) rows =
      (updated rowKey updateKey value apply updates rows).modify index (apply update) := by
  induction rows generalizing index with
  | nil => simp [lastIndex] at h
  | cons row rows ih =>
    cases hlast : lastIndex rowKey (updateKey update) rows with
    | none =>
      have hmissed := (lastIndex_eq_none rowKey).mp hlast
      simp only [lastIndex, hlast] at h
      by_cases hkey : rowKey row = updateKey update
      · rw [if_pos hkey] at h
        cases h
        have hlater : ¬∃ other ∈ rows, rowKey other = rowKey row := by
          rw [hkey]
          simpa using hmissed
        simp only [updated, if_neg hlater, modify_zero_cons,
          updatedRow_append_same rowKey updateKey value apply hkey.symm,
          updated_append_missed rowKey updateKey value apply hmissed]
      · simp [hkey] at h
    | some position =>
      simp only [lastIndex, hlast, Option.some.injEq] at h
      subst h
      rw [updated, updated, ih hlast, modify_succ_cons]
      by_cases hlater : ∃ other ∈ rows, rowKey other = rowKey row
      · rw [if_pos hlater, if_pos hlater]
      · have hother : updateKey update ≠ rowKey row := by
          intro hkey
          obtain ⟨_, last, _, hrows, -, hsame, -⟩ := lastIndex_eq_some rowKey hlast
          exact hlater ⟨last, by simp [hrows], hsame.trans hkey⟩
        rw [if_neg hlater, if_neg hlater,
          updatedRow_append_other rowKey updateKey value apply hother]

theorem mem_updated {out : Out} (h : out ∈ updated rowKey updateKey value apply updates rows) :
    ∃ row ∈ rows, out = value row ∨ out = updatedRow rowKey updateKey value apply updates row := by
  induction rows with
  | nil => simp [updated] at h
  | cons row rows ih =>
    rw [updated, mem_cons] at h
    rcases h with hhead | hrest
    · refine ⟨row, mem_cons_self, ?_⟩
      split at hhead
      · exact Or.inl hhead
      · exact Or.inr hhead
    · obtain ⟨other, hother, hout⟩ := ih hrest
      exact ⟨other, mem_cons_of_mem _ hother, hout⟩

theorem updatedRow_mem (updates : List Update) (h : row ∈ rows) :
    ∃ last ∈ rows, rowKey last = rowKey row ∧
      updatedRow rowKey updateKey value apply updates last ∈
        updated rowKey updateKey value apply updates rows := by
  induction rows generalizing row with
  | nil => simp at h
  | cons first rows ih =>
    by_cases hlater : ∃ other ∈ rows, rowKey other = rowKey row
    · obtain ⟨other, hother, hkey⟩ := hlater
      obtain ⟨last, hlast, hsame, hmember⟩ := ih hother
      exact ⟨last, mem_cons_of_mem _ hlast, hsame.trans hkey,
        mem_cons_of_mem _ hmember⟩
    · have hfirst : row = first := by
        rcases mem_cons.mp h with hhead | hrest
        · exact hhead
        · exact (hlater ⟨row, hrest, rfl⟩).elim
      subst hfirst
      exact ⟨row, mem_cons_self, rfl, by simp [updated, hlater]⟩

theorem updated_front (updates : List Update) (front : List Row) {rows' : List Row}
    (h : rows.Perm rows') :
    ∃ heads,
      updated rowKey updateKey value apply updates (front ++ rows) =
        heads ++ updated rowKey updateKey value apply updates rows ∧
      updated rowKey updateKey value apply updates (front ++ rows') =
        heads ++ updated rowKey updateKey value apply updates rows' := by
  induction front with
  | nil => exact ⟨[], rfl, rfl⟩
  | cons row front ih =>
    obtain ⟨heads, hrows, hrows'⟩ := ih
    have hsame : (∃ other ∈ front ++ rows', rowKey other = rowKey row) ↔
        ∃ other ∈ front ++ rows, rowKey other = rowKey row :=
      exists_congr fun other => and_congr_left' (h.append_left front).mem_iff.symm
    refine ⟨(if ∃ other ∈ front ++ rows, rowKey other = rowKey row then value row
      else updatedRow rowKey updateKey value apply updates row) :: heads, ?_, ?_⟩
    · rw [cons_append, updated, hrows]
      rfl
    · rw [cons_append, updated, hrows', if_congr hsame rfl rfl]
      rfl

theorem updated_perm_updates (hcommute : ∀ first second out, apply first (apply second out) =
      apply second (apply first out))
    {updates' : List Update} (h : updates.Perm updates') (rows : List Row) :
    updated rowKey updateKey value apply updates rows =
      updated rowKey updateKey value apply updates' rows := by
  induction rows with
  | nil => rfl
  | cons row rows ih =>
    have hrow : updatedRow rowKey updateKey value apply updates row =
        updatedRow rowKey updateKey value apply updates' row :=
      (h.filter _).foldl_eq' (fun first _ second _ out => hcommute second first out) _
    simp only [updated, ih, hrow]

/-- Rows that share a key with each other and with an update have one value. -/
def RowsAgree (updates : List Update) (rows : List Row) : Prop :=
  ∀ first ∈ rows, ∀ second ∈ rows, rowKey first = rowKey second →
    (∃ update ∈ updates, updateKey update = rowKey first) → value first = value second

theorem updated_perm_rows {rows' : List Row}
    (h : rows.Perm rows') (hagree : RowsAgree rowKey updateKey value updates rows) :
    (updated rowKey updateKey value apply updates rows).Perm
      (updated rowKey updateKey value apply updates rows') := by
  induction h with
  | nil => exact List.Perm.refl _
  | cons row hrows ih =>
    have hsame : (∃ other ∈ _, rowKey other = rowKey row) ↔
        ∃ other ∈ _, rowKey other = rowKey row :=
      exists_congr fun other => and_congr_left' hrows.mem_iff
    simp only [updated, hsame]
    exact (ih fun first hfirst second hsecond =>
      hagree first (mem_cons_of_mem _ hfirst) second
        (mem_cons_of_mem _ hsecond)).cons _
  | swap first second rows =>
    by_cases hkey : rowKey first = rowKey second
    · by_cases hlater : ∃ other ∈ rows, rowKey other = rowKey second
      · -- Neither of the two is the last row of their key.
        have hlater' : ∃ other ∈ rows, rowKey other = rowKey first := hkey ▸ hlater
        simp only [updated, mem_cons, exists_eq_or_imp, hkey, hlater, or_true, if_true]
        exact List.Perm.swap _ _ _
      · have hlater' : ¬∃ other ∈ rows, rowKey other = rowKey first := hkey ▸ hlater
        simp only [updated, mem_cons, exists_eq_or_imp, hkey, hlater, or_false, if_true, if_false]
        by_cases hupdate : ∃ update ∈ updates, updateKey update = rowKey first
        · have hvalue := hagree first (by simp) second (by simp) hkey hupdate
          have hrow : updatedRow rowKey updateKey value apply updates first =
              updatedRow rowKey updateKey value apply updates second := by
            rw [updatedRow, updatedRow, hkey, hvalue]
          rw [hvalue, hrow]
        · have hplain : ∀ row, rowKey row = rowKey first →
              updatedRow rowKey updateKey value apply updates row = value row := by
            intro row hrow
            have hnone : (updates.filter fun update => updateKey update = rowKey row) = [] := by
              rw [filter_eq_nil_iff]
              intro update hmember hsame
              exact hupdate ⟨update, hmember, (of_decide_eq_true hsame).trans hrow⟩
            rw [updatedRow, hnone]
            rfl
          rw [hplain first rfl, hplain second hkey.symm]
          exact List.Perm.swap _ _ _
    · have hkey' : rowKey second ≠ rowKey first := Ne.symm hkey
      simp only [updated, mem_cons, exists_eq_or_imp, hkey, hkey', false_or]
      exact List.Perm.swap _ _ _
  | trans hrows hrows' ih ih' =>
    have hagree' : RowsAgree rowKey updateKey value updates _ :=
      fun first hfirst second hsecond =>
        hagree first (hrows.mem_iff.mpr hfirst) second (hrows.mem_iff.mpr hsecond)
    exact (ih hagree).trans (ih' hagree')

theorem updatedRow_ne (hmark : ∀ update out row, apply update out ≠ value row)
    (h : ∃ update ∈ updates, updateKey update = rowKey row) (other : Row) :
    updatedRow rowKey updateKey value apply updates row ≠ value other := by
  rcases eq_nil_or_concat
    (updates.filter fun update => updateKey update = rowKey row) with hnone | ⟨front, last, hlast⟩
  · obtain ⟨update, hupdate, hkey⟩ := h
    have hfound : update ∈ updates.filter fun update => updateKey update = rowKey row :=
      mem_filter.mpr ⟨hupdate, by simpa using hkey⟩
    rw [hnone] at hfound
    simp at hfound
  · rw [updatedRow, hlast, concat_eq_append, foldl_append]
    exact hmark last _ other

theorem rowsAgree_of_perm (hmark : ∀ update out row, apply update out ≠ value row)
    (h : ∀ rows' rows'', rows.Perm rows' → rows.Perm rows'' →
      (updated rowKey updateKey value apply updates rows').Perm
        (updated rowKey updateKey value apply updates rows'')) :
    RowsAgree rowKey updateKey value updates rows := by
  intro first hfirst second hsecond hkey hupdate
  by_contra hdiffer
  have hne : second ≠ first := fun hsame => hdiffer (by rw [hsame])
  -- The two rows are put last, in either order.
  obtain ⟨front, back, rfl⟩ := append_of_mem hfirst
  have hrest : second ∈ front ++ back := by
    simpa [hne] using hsecond
  obtain ⟨front', back', hback⟩ := append_of_mem hrest
  have hrows : (front ++ first :: back).Perm ((front' ++ back') ++ [first, second]) := by
    have hfront : (front ++ first :: back).Perm (first :: second :: (front' ++ back')) := by
      refine perm_middle.trans (List.Perm.cons first ?_)
      rw [hback]
      exact perm_middle
    exact hfront.trans (@List.perm_append_comm _ [first, second] (front' ++ back'))
  have hswap : ((front' ++ back') ++ [first, second]).Perm
      ((front' ++ back') ++ [second, first]) :=
    (List.Perm.swap second first []).append_left _
  obtain ⟨heads, hleft, hright⟩ := updated_front rowKey updateKey value apply updates
    (front' ++ back') (List.Perm.swap second first [])
  have hperm := h _ _ hrows (hrows.trans hswap)
  rw [hleft, hright, perm_append_left_iff] at hperm
  have hmember : value first ∈
      updated rowKey updateKey value apply updates [second, first] :=
    hperm.subset (by simp [updated, hkey])
  have hmarked := updatedRow_ne rowKey updateKey value apply hmark hupdate first
  simp [updated, hkey, hdiffer, Ne.symm hmarked] at hmember

end

end TwinForge.KeyedUpdates
