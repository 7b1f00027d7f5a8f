import TwinForge.StructuredText.WordParsing

/-! # The statement parser reads words

A program that is parsed with nothing to report is parsed alike whatever trivia stands between its
words.
-/

namespace TwinForge.StructuredText

open List

/-! ## Statements without source ranges -/

namespace Statement

mutual

/-- The statement with all source ranges erased. -/
def withoutSpans : Statement → Statement
  | .assignment _ target operator value =>
    .assignment noSpan target.withoutSpans operator value.withoutSpans
  | .expression _ e => .expression noSpan e.withoutSpans
  | .exit _ => .exit noSpan
  | .label _ name => .label noSpan name
  | .jump _ target => .jump noSpan target
  | .ifThen _ branches statements =>
    .ifThen noSpan (branchesWithoutSpans branches) (listWithoutSpans statements)
  | .whileDo _ condition statements =>
    .whileDo noSpan condition.withoutSpans (listWithoutSpans statements)
  | .unsupported _ text => .unsupported noSpan text

def listWithoutSpans : List Statement → List Statement
  | [] => []
  | s :: ss => withoutSpans s :: listWithoutSpans ss

def branchesWithoutSpans : List (IfBranch Statement) → List (IfBranch Statement)
  | [] => []
  | b :: bs => branchWithoutSpans b :: branchesWithoutSpans bs

def branchWithoutSpans : IfBranch Statement → IfBranch Statement
  | ⟨_, condition, statements⟩ => ⟨noSpan, condition.withoutSpans, listWithoutSpans statements⟩

end

theorem listWithoutSpans_eq (ss : List Statement) : listWithoutSpans ss = ss.map withoutSpans := by
  induction ss with
  | nil => rfl
  | cons s ss ih => rw [listWithoutSpans, ih, map_cons]

theorem branchesWithoutSpans_eq (bs : List (IfBranch Statement)) :
    branchesWithoutSpans bs = bs.map branchWithoutSpans := by
  induction bs with
  | nil => rfl
  | cons b bs ih => rw [branchesWithoutSpans, ih, map_cons]

end Statement

namespace Parser

variable {db : CharacterDatabase}

open Statement (listWithoutSpans branchesWithoutSpans branchesWithoutSpans_eq branchWithoutSpans)

/-! ## Statements -/

abbrev eraseStatement (s : Option Statement) : Option Statement := s.map Statement.withoutSpans

/-- Every function of the statement parser, with a given fuel. -/
structure StatementsTrack (db : CharacterDatabase) (fuel : Nat) : Prop where
  statementList : ∀ terminators statements statements' p q,
    listWithoutSpans statements = listWithoutSpans statements' → Alike p q →
    Tracks listWithoutSpans p (statementList db fuel terminators statements p)
      (statementList db fuel terminators statements' q)
  statement : ∀ p q, Alike p q →
    Tracks eraseStatement p (statement db fuel p) (statement db fuel q)
  ifStatement : ∀ p q, Alike p q →
    Tracks Statement.withoutSpans p (ifStatement db fuel p) (ifStatement db fuel q)
  elsifLoop : ∀ branches branches' p q,
    branchesWithoutSpans branches = branchesWithoutSpans branches' → Alike p q →
    Tracks branchesWithoutSpans p (elsifLoop db fuel branches p) (elsifLoop db fuel branches' q)
  ifBranch : ∀ start start' p q, Alike p q →
    Tracks branchWithoutSpans p (ifBranch db fuel start p) (ifBranch db fuel start' q)
  whileStatement : ∀ p q, Alike p q →
    Tracks Statement.withoutSpans p (whileStatement db fuel p) (whileStatement db fuel q)

variable {p q : Parser}

theorem Alike.skipTrivia (h : Alike p q) : Alike p.skipTrivia q.skipTrivia := by
  refine ⟨?_, h.marker⟩
  rw [skipTrivia_upcoming, skipTrivia_upcoming]
  exact h.upcoming

/-! ### Recovery -/

variable {p' : Parser}

theorem recoverLoop_behind {fuel : Nat} {stop : Nat}
    (h : recoverLoop db fuel p = some (stop, p')) : Behind p p' := by
  induction fuel generalizing p with
  | zero => cases h
  | succ fuel ih =>
    have hadvance : ∀ p : Parser, Behind p p.advance :=
      fun p => ⟨prefix_refl _, List.tail_suffix _, rfl⟩
    unfold recoverLoop at h
    split at h
    · cases h
      exact Behind.refl _
    · split at h
      · cases h
        exact hadvance _
      · simp only at h
        split at h
        · cases h
          exact behind_skipTrivia p
        · exact (behind_skipTrivia p).trans ((hadvance _).trans (ih h))

variable {code : Text}

theorem recoverStatement_reported {fuel : Nat} {s : Statement}
    (h : recoverStatement db fuel code p = some (s, p')) :
    Behind p p' ∧ p'.diagnostics ≠ [] := by
  unfold recoverStatement at h
  obtain ⟨⟨stop, q⟩, hloop, hread⟩ := Option.bind_eq_some_iff.mp h
  cases hread
  refine ⟨(behind_skipTrivia p).trans ((recoverLoop_behind hloop).trans ?_), by simp [diagnostic]⟩
  exact behind_diagnostic q _ _ _

theorem Tracks.recovered {α β : Type} {erase : α → β} {fuel : Nat}
    {f : Statement × Parser → Option (α × Parser)} {y : Option (α × Parser)}
    (hf : ∀ s p', Tracks erase p' (f (s, p')) (f (s, p'))) :
    Tracks erase p (recoverStatement db fuel code p >>= f) y := by
  intro a p'' h
  obtain ⟨⟨s, p'⟩, hrecover, hrest⟩ := Option.bind_eq_some_iff.mp h
  obtain ⟨hbehind, hreport⟩ := recoverStatement_reported hrecover
  have hmore := (hf s p' a p'' hrest).1
  refine ⟨hbehind.trans hmore, fun hnone => ?_⟩
  exact absurd (prefix_nil.mp (hnone ▸ hmore.reported)) hreport

section

variable {fuel : Nat}

/-! ### Words a statement may lack -/

theorem statementEnd_alike (fallback fallback' : Nat) (h : Alike p q) :
    Behind p (statementEnd fallback p).2 ∧
      Alike (statementEnd fallback p).2 (statementEnd fallback' q).2 := by
  unfold statementEnd
  rw [← h.atKind]
  split
  · exact ⟨behind_take p, h.take⟩
  · exact ⟨behind_diagnostic p _ _ _, h.diagnostic _ _ _ _ _ _⟩

theorem closeKeyword_alike (value code message : Text) (start start' : Nat) {p q : Parser}
    (h : Alike p q) : Behind p (closeKeyword db value code message start p).2 ∧
      Alike (closeKeyword db value code message start p).2
        (closeKeyword db value code message start' q).2 := by
  unfold closeKeyword
  rw [← @Alike.keyword db _ _ h]
  split
  · obtain ⟨hbehind, halike⟩ := statementEnd_alike p.peek.span.stop q.peek.span.stop h.take
    exact ⟨(behind_take p).trans hbehind, halike⟩
  · exact ⟨behind_diagnostic p _ _ _, h.diagnostic _ _ _ _ _ _⟩

theorem expectKeyword_alike (value code message : Text) (span span' : SourceSpan) {p q : Parser}
    (h : Alike p q) : Behind p (expectKeyword db value code message span p) ∧
      Alike (expectKeyword db value code message span p)
        (expectKeyword db value code message span' q) := by
  unfold expectKeyword
  rw [← @Alike.keyword db _ _ h]
  split
  · exact ⟨behind_take p, h.take⟩
  · exact ⟨behind_diagnostic p _ _ _, h.diagnostic _ _ _ _ _ _⟩

theorem orMissing_alike (code message : Text) (start start' : Nat) {e e' : Option Expression}
    (hsame : eraseExpression e = eraseExpression e') (h : Alike p q) :
    Behind p (orMissing e code message start p).2 ∧
      Alike (orMissing e code message start p).2 (orMissing e' code message start' q).2 ∧
      (orMissing e code message start p).1.withoutSpans =
        (orMissing e' code message start' q).1.withoutSpans := by
  cases e with
  | none =>
    cases e' with
    | none => exact ⟨behind_diagnostic p _ _ _, h.diagnostic _ _ _ _ _ _, rfl⟩
    | some right => cases hsame
  | some left =>
    cases e' with
    | none => cases hsame
    | some right => exact ⟨Behind.refl p, h, Option.some.inj hsame⟩

/-! ### Statements -/

theorem whileStatement_tracks (ih : StatementsTrack db fuel) (h : Alike p q) :
    Tracks Statement.withoutSpans p
      (whileStatement db (fuel + 1) p) (whileStatement db (fuel + 1) q) := by
  simp only [whileStatement]
  apply Tracks.after (behind_take p)
  apply Tracks.bind ((expressionsTrack db fuel).expression 1 p.take q.take h.take)
  intro condition condition' p' q' hcondition hnext
  obtain ⟨hbehind, halike, herase⟩ := orMissing_alike "missing_while_condition"
    "WHILE statement is missing a condition" p.peek.span.start q.peek.span.start hcondition hnext
  apply Tracks.after hbehind
  obtain ⟨hopened, hbody⟩ := @expectKeyword_alike db "DO" "missing_do"
    "WHILE statement is missing DO" (orMissing condition "missing_while_condition"
      "WHILE statement is missing a condition" p.peek.span.start p').1.span
    (orMissing condition' "missing_while_condition" "WHILE statement is missing a condition"
      q.peek.span.start q').1.span _ _ halike
  apply Tracks.after hopened
  apply Tracks.bind (ih.statementList ["END_WHILE"] [] [] _ _ rfl hbody)
  intro statements statements' p'' q'' hstatements hlast
  obtain ⟨hclosed, hend⟩ := @closeKeyword_alike db "END_WHILE" "missing_end_while"
    "WHILE statement is missing END_WHILE" p.peek.span.start q.peek.span.start _ _ hlast
  apply Tracks.some hclosed _ hend
  simp only [Statement.withoutSpans, herase, hstatements]

theorem ifBranch_tracks (ih : StatementsTrack db fuel) (start start' : Nat)
    (h : Alike p q) : Tracks branchWithoutSpans p
      (ifBranch db (fuel + 1) start p) (ifBranch db (fuel + 1) start' q) := by
  simp only [ifBranch]
  apply Tracks.bind ((expressionsTrack db fuel).expression 1 p q h)
  intro condition condition' p' q' hcondition hnext
  obtain ⟨hbehind, halike, herase⟩ := orMissing_alike "missing_if_condition"
    "IF branch is missing a condition" start start' hcondition hnext
  apply Tracks.after hbehind
  obtain ⟨hopened, hbody⟩ := @expectKeyword_alike db "THEN" "missing_then"
    "IF branch is missing THEN" (orMissing condition "missing_if_condition"
      "IF branch is missing a condition" start p').1.span
    (orMissing condition' "missing_if_condition" "IF branch is missing a condition" start' q').1.span
    _ _ halike
  apply Tracks.after hopened
  apply Tracks.bind (ih.statementList ["ELSIF", "ELSE", "END_IF"] [] [] _ _ rfl hbody)
  intro statements statements' p'' q'' hstatements hlast
  apply Tracks.some (Behind.refl _) _ hlast
  simp only [branchWithoutSpans, herase, hstatements]

theorem elsifLoop_tracks (ih : StatementsTrack db fuel)
    {branches branches' : List (IfBranch Statement)}
    (hsame : branchesWithoutSpans branches = branchesWithoutSpans branches') (h : Alike p q) :
    Tracks branchesWithoutSpans p
      (elsifLoop db (fuel + 1) branches p) (elsifLoop db (fuel + 1) branches' q) := by
  simp only [elsifLoop, ← @Alike.keyword db _ _ h]
  split
  · apply Tracks.after (behind_take p)
    apply Tracks.bind (ih.ifBranch _ _ p.take q.take h.take)
    intro branch branch' p' q' hbranch hnext
    apply ih.elsifLoop _ _ p' q' _ hnext
    rw [branchesWithoutSpans_eq, branchesWithoutSpans_eq] at hsame
    rw [branchesWithoutSpans_eq, branchesWithoutSpans_eq, map_append, map_append, hsame,
      map_singleton, map_singleton, hbranch]
  · exact Tracks.some (Behind.refl p) hsame h

theorem ifStatement_tracks (ih : StatementsTrack db fuel) (h : Alike p q) :
    Tracks Statement.withoutSpans p
      (ifStatement db (fuel + 1) p) (ifStatement db (fuel + 1) q) := by
  simp only [ifStatement]
  apply Tracks.after (behind_take p)
  apply Tracks.bind (ih.ifBranch _ _ p.take q.take h.take)
  intro first first' p' q' hfirst hnext
  have hone : branchesWithoutSpans [first] = branchesWithoutSpans [first'] := by
    rw [branchesWithoutSpans_eq, branchesWithoutSpans_eq, map_singleton, hfirst,
      map_singleton]
  apply Tracks.bind (ih.elsifLoop [first] [first'] p' q' hone hnext)
  intro branches branches' p₁ q₁ hbranches hafter
  have hclose : ∀ statements statements' p₂ q₂,
      listWithoutSpans statements = listWithoutSpans statements' → Alike p₂ q₂ →
      Tracks Statement.withoutSpans p₂
        (pure (Statement.ifThen ⟨p.peek.span.start, (closeKeyword db "END_IF" "missing_end_if"
            "IF statement is missing END_IF" p.peek.span.start p₂).1⟩ branches statements,
          (closeKeyword db "END_IF" "missing_end_if" "IF statement is missing END_IF"
            p.peek.span.start p₂).2))
        (pure (Statement.ifThen ⟨q.peek.span.start, (closeKeyword db "END_IF" "missing_end_if"
            "IF statement is missing END_IF" q.peek.span.start q₂).1⟩ branches' statements',
          (closeKeyword db "END_IF" "missing_end_if" "IF statement is missing END_IF"
            q.peek.span.start q₂).2)) := by
    intro statements statements' p₂ q₂ hstatements hlast
    obtain ⟨hclosed, hend⟩ := @closeKeyword_alike db "END_IF" "missing_end_if"
      "IF statement is missing END_IF" p.peek.span.start q.peek.span.start _ _ hlast
    apply Tracks.some hclosed _ hend
    simp only [Statement.withoutSpans, hbranches, hstatements]
  simp only [← @Alike.keyword db _ _ hafter]
  split
  · apply Tracks.after (behind_take p₁)
    apply Tracks.bind (ih.statementList ["END_IF"] [] [] p₁.take q₁.take rfl hafter.take)
    exact fun statements statements' p₂ q₂ hsame hlast => hclose _ _ p₂ q₂ hsame hlast
  · exact hclose [] [] p₁ q₁ rfl hafter

theorem Tracks.parsed {x y : Option (Statement × Parser)}
    (h : Tracks Statement.withoutSpans p x y) :
    Tracks eraseStatement p (x >>= fun r => pure (Option.some r.1, r.2))
      (y >>= fun r => pure (Option.some r.1, r.2)) := by
  apply Tracks.bind h
  intro s s' p' q' hsame hnext
  exact Tracks.some (Behind.refl p') (congrArg Option.some hsame) hnext

theorem Tracks.retained {y : Option (Option Statement × Parser)} :
    Tracks eraseStatement p
      (recoverStatement db fuel code p >>= fun r => pure (Option.some r.1, r.2)) y :=
  Tracks.recovered fun _ p' => Tracks.some (Behind.refl p') rfl (Alike.refl p')

theorem statement_tracks (ih : StatementsTrack db fuel) (h : Alike p q) :
    Tracks eraseStatement p (statement db (fuel + 1) p) (statement db (fuel + 1) q) := by
  have hs := h.skipTrivia
  have hkind : p.skipTrivia.current.kind = q.skipTrivia.current.kind := h.kind
  have hword := fun value => @Alike.keyword db _ _ hs value
  apply Tracks.after (behind_skipTrivia p)
  simp only [statement, ← hkind, ← hword, ← hs.take.atKind, ← hs.atKind, ← hs.secondKind,
    ← hs.text, ← hs.take.text]
  split
  · exact Tracks.some (Behind.refl _) rfl hs
  split
  · exact Tracks.parsed (ih.ifStatement _ _ hs)
  split
  · exact Tracks.parsed (ih.whileStatement _ _ hs)
  split
  · obtain ⟨hbehind, halike⟩ := statementEnd_alike p.skipTrivia.current.span.start
      q.skipTrivia.current.span.start hs.take
    exact Tracks.some ((behind_take _).trans hbehind) rfl halike
  split
  · apply Tracks.after (behind_take _)
    split
    · obtain ⟨hbehind, halike⟩ := statementEnd_alike p.skipTrivia.take.peek.span.stop
        q.skipTrivia.take.peek.span.stop hs.take.take
      exact Tracks.some ((behind_take _).trans hbehind) rfl halike
    · exact Tracks.retained
  split
  · exact Tracks.some ((behind_take _).trans (behind_take _)) rfl hs.take.take
  apply Tracks.bindExpression ((expressionsTrack db fuel).expression 1 _ _ hs)
  · exact fun p' q' _ => Tracks.retained
  · intro target target' p' q' htarget hnext
    simp only [← hnext.atKind]
    split
    · apply Tracks.after (behind_take p')
      apply Tracks.bindExpression ((expressionsTrack db fuel).expression 1 _ _ hnext.take)
      · exact fun p₁ q₁ _ => Tracks.retained
      · intro value value' p₁ q₁ hvalue hlast
        obtain ⟨hbehind, halike⟩ := statementEnd_alike value.span.stop value'.span.stop hlast
        apply Tracks.some hbehind _ halike
        simp only [eraseStatement, Option.map_some, Statement.withoutSpans, htarget, hvalue,
          hnext.text]
    · obtain ⟨hbehind, halike⟩ := statementEnd_alike target.span.stop target'.span.stop hnext
      apply Tracks.after hbehind
      -- every statement but a call is reported
      cases target with
      | call span callee arguments =>
        cases target' with
        | call span' callee' arguments' =>
          apply Tracks.some (Behind.refl _) _ halike
          simp only [eraseStatement, Option.map_some, Statement.withoutSpans, htarget]
        | _ => cases htarget
      | _ => exact Tracks.diagnosed _ _ _

theorem statementList_at_end (terminators : List Text) (statements : List Statement) {p : Parser}
    (h : p.peek.kind = .endOfFile) : ∃ p', Behind p p' ∧ Alike p p' ∧
      statementList db (fuel + 1) terminators statements p = some (statements, p') := by
  by_cases hcurrent : p.current.kind = .endOfFile
  · refine ⟨p, Behind.refl p, Alike.refl p, ?_⟩
    rw [statementList, if_pos hcurrent]
  · have hskipped : p.skipTrivia.current.kind = .endOfFile := h
    have hpeek : p.skipTrivia.peek.kind = .endOfFile := by
      rw [peek, skipTrivia_skipTrivia]
      exact hskipped
    refine ⟨p.skipTrivia, behind_skipTrivia p, ⟨(skipTrivia_upcoming p).symm, rfl⟩, ?_⟩
    simp [statementList, hcurrent, keywordIn, hpeek, hskipped]

theorem upcoming_shorter (hbehind : Behind p.skipTrivia p')
    (hmoved : p'.samePosition p.skipTrivia = false) : p'.upcoming ≠ p.upcoming := by
  obtain ⟨lead, hlead⟩ := hbehind.ahead
  cases lead with
  | nil =>
    rw [nil_append] at hlead
    simp [samePosition, hlead] at hmoved
  | cons token lead =>
    have hplain : isTrivia token = false := by
      have hhead := List.head?_dropWhile_not isTrivia p.rest
      have hrest : p.rest.dropWhile isTrivia = token :: (lead ++ p'.rest) := hlead.symm
      rw [hrest] at hhead
      simpa using hhead
    intro hsame
    have hlength := congrArg List.length hsame
    rw [← skipTrivia_upcoming p] at hlength
    unfold upcoming at hlength
    rw [← hlead] at hlength
    simp [hplain] at hlength
    omega

theorem statementList_behind (ih : StatementsTrack db fuel) {terminators : List Text}
    {statements result : List Statement}
    (h : statementList db fuel terminators statements p = some (result, p')) : Behind p p' :=
  (ih.statementList terminators statements statements p p rfl (Alike.refl p) result p' h).1

theorem statementList_tracks (ih : StatementsTrack db fuel) (terminators : List Text)
    {statements statements' : List Statement}
    (hsame : listWithoutSpans statements = listWithoutSpans statements') (h : Alike p q) :
    Tracks listWithoutSpans p (statementList db (fuel + 1) terminators statements p)
      (statementList db (fuel + 1) terminators statements' q) := by
  by_cases hend : p.peek.kind = .endOfFile
  · obtain ⟨p', hbehind, halike, hp⟩ := @statementList_at_end db fuel terminators statements p hend
    obtain ⟨q', _, halike', hq⟩ :=
      @statementList_at_end db fuel terminators statements' q (h.kind ▸ hend)
    rw [hp, hq]
    exact Tracks.some hbehind hsame (halike.symm.trans (h.trans halike'))
  · have hs := h.skipTrivia
    have hend' : q.peek.kind ≠ .endOfFile := h.kind ▸ hend
    have hskipped : p.skipTrivia.current.kind ≠ .endOfFile := hend
    have hskipped' : q.skipTrivia.current.kind ≠ .endOfFile := hend'
    apply Tracks.after (behind_skipTrivia p)
    simp only [statementList, if_neg (current_of_peek hend), if_neg (current_of_peek hend'),
      if_neg hskipped, if_neg hskipped', ← @Alike.keywordIn db _ _ hs]
    split
    · exact Tracks.some (Behind.refl _) hsame hs
    apply Tracks.bind_of (ih.statement _ _ hs)
    · intro parsed p' result p'' hresult
      simp only at hresult
      split at hresult
      · obtain ⟨⟨recovered, r⟩, hrecover, hlater⟩ := Option.bind_eq_some_iff.mp hresult
        exact (recoverStatement_reported hrecover).1.trans (statementList_behind ih hlater)
      · exact statementList_behind ih hresult
    · intro parsed parsed' p' q' hx hy hparsed hnext
      have hmore : listWithoutSpans (statements ++ parsed.toList) =
          listWithoutSpans (statements' ++ parsed'.toList) := by
        have hone : parsed.toList.map Statement.withoutSpans =
            parsed'.toList.map Statement.withoutSpans := by
          rw [← Option.toList_map, ← Option.toList_map]
          exact congrArg Option.toList hparsed
        rw [Statement.listWithoutSpans_eq, Statement.listWithoutSpans_eq] at hsame
        rw [Statement.listWithoutSpans_eq, Statement.listWithoutSpans_eq, map_append,
          map_append, hsame, hone]
      have hbehind := (ih.statement p.skipTrivia p.skipTrivia (Alike.refl _) parsed p' hx).1
      have hbehind' := (ih.statement q.skipTrivia q.skipTrivia (Alike.refl _) parsed' q' hy).1
      simp only
      split
      · exact Tracks.recovered fun s r =>
          ih.statementList terminators _ _ r r rfl (Alike.refl r)
      · next hmoved =>
        rw [Bool.not_eq_true] at hmoved
        have hother := upcoming_shorter hbehind hmoved
        have hmoved' : ¬ q'.samePosition q.skipTrivia = true := by
          intro hstays
          apply hother
          have hrest := hbehind'.ahead.eq_of_length (beq_iff_eq.mp hstays)
          have hwords : q'.upcoming = q.skipTrivia.upcoming := by rw [upcoming, upcoming, hrest]
          rw [hnext.upcoming, hwords, skipTrivia_upcoming, h.upcoming]
        rw [if_neg hmoved']
        exact ih.statementList terminators _ _ p' q' hmore hnext

theorem statementsTrack (db : CharacterDatabase) (fuel : Nat) : StatementsTrack db fuel := by
  induction fuel with
  | zero => constructor <;> intros <;> exact Tracks.none
  | succ fuel ih =>
    constructor
    · exact fun terminators statements statements' p q hsame h =>
        statementList_tracks ih terminators hsame h
    · exact fun p q h => statement_tracks ih h
    · exact fun p q h => ifStatement_tracks ih h
    · exact fun branches branches' p q hsame h => elsifLoop_tracks ih hsame h
    · exact fun start start' p q h => ifBranch_tracks ih start start' h
    · exact fun p q h => whileStatement_tracks ih h

end

end Parser

end TwinForge.StructuredText
