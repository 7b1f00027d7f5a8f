import TwinForge.Foundation.Guards
import TwinForge.Foundation.JsonRoundTrip
import TwinForge.ModelJson.Reading

/-! # Tokens of pointers

A token is decoded to the key it was written for exactly when the key holds no percent sign
and no lone surrogate: an escape that is decoded shortens the key. A pointer to a node
names no other node, and resolving it finds the node exactly when every key on the way is
plain.
-/

namespace TwinForge.ModelJson

open Points List

/-! ## Escaping -/

def escapePoint (point : CodePoint) : Points :=
  if point = .scalar '~' then [.scalar '~', .scalar '0']
  else if point = .scalar '/' then [.scalar '~', .scalar '1']
  else [point]

theorem pointerToken_eq (key : Points) : pointerToken key = key.flatMap escapePoint := by
  rw [pointerToken, replaceChar, replaceChar, flatMap_assoc]
  congr 1
  funext point
  unfold escapePoint
  by_cases htilde : point = .scalar '~'
  · rw [if_pos htilde, if_pos htilde]
    rfl
  · rw [if_neg htilde, if_neg htilde]
    by_cases hslash : point = .scalar '/'
    · rw [if_pos hslash, hslash]
      rfl
    · simp [hslash]

theorem slash_not_mem_pointerToken (key : Points) : .scalar '/' ∉ pointerToken key := by
  rw [pointerToken_eq, mem_flatMap]
  intro ⟨point, _, hpoint⟩
  unfold escapePoint at hpoint
  split at hpoint
  · simp at hpoint
  · split at hpoint
    · simp at hpoint
    · rename_i hslash
      exact hslash (mem_singleton.mp hpoint).symm

theorem pointerToken_injective {first second : Points}
    (h : pointerToken first = pointerToken second) : first = second := by
  rw [pointerToken_eq, pointerToken_eq] at h
  induction first generalizing second with
  | nil =>
    cases second with
    | nil => rfl
    | cons point second =>
      rw [flatMap_cons, flatMap_nil] at h
      unfold escapePoint at h
      split at h
      · cases h
      · split at h <;> cases h
  | cons point first ih =>
    cases second with
    | nil =>
      rw [flatMap_cons, flatMap_nil] at h
      unfold escapePoint at h
      split at h
      · cases h
      · split at h <;> cases h
    | cons other second =>
      rw [flatMap_cons, flatMap_cons] at h
      have hheads : point = other := by
        unfold escapePoint at h
        split at h <;> split at h <;> try split at h
        all_goals try split at h
        all_goals simp_all
      subst hheads
      rw [ih (append_cancel_left h)]

def escapeText (s : Text) : Text :=
  s.flatMap fun c => if c = '~' then ['~', '0'] else if c = '/' then ['~', '1'] else [c]

theorem pointerToken_ofText (s : Text) : pointerToken (ofText s) = ofText (escapeText s) := by
  rw [pointerToken_eq]
  induction s with
  | nil => rfl
  | cons c s ih =>
    have hcons : ofText (c :: s) = .scalar c :: ofText s := rfl
    have hescape : escapeText (c :: s) = escapeText [c] ++ escapeText s := by
      simp [escapeText]
    rw [hcons, flatMap_cons, ih, hescape, ofText_append]
    congr 1
    by_cases htilde : c = '~'
    · subst htilde
      rfl
    · by_cases hslash : c = '/'
      · subst hslash
        rfl
      · simp [escapePoint, escapeText, htilde, hslash, ofText]

theorem unescape_escapeText (s : Text) : unescape (escapeText s) = some s := by
  induction s with
  | nil => rfl
  | cons c s ih =>
    have hescape : escapeText (c :: s) = escapeText [c] ++ escapeText s := by
      simp [escapeText]
    rw [hescape]
    by_cases htilde : c = '~'
    · subst htilde
      show (unescape (escapeText s)).map ('~' :: ·) = _
      rw [ih]
      rfl
    · by_cases hslash : c = '/'
      · subst hslash
        show (unescape (escapeText s)).map ('/' :: ·) = _
        rw [ih]
        rfl
      · have hsingle : escapeText [c] = [c] := by simp [escapeText, htilde, hslash]
        rw [hsingle]
        show unescape (c :: escapeText s) = _
        rw [unescape, ih]
        · rfl
        · intro rest hc
          exact absurd hc htilde
        · intro rest hc
          exact absurd hc htilde
        · exact htilde

theorem percent_mem_escapeText {s : Text} : '%' ∈ escapeText s ↔ '%' ∈ s := by
  rw [escapeText, mem_flatMap]
  constructor
  · intro ⟨c, hc, hmember⟩
    split at hmember
    · simp at hmember
    · split at hmember
      · simp at hmember
      · exact mem_singleton.mp hmember ▸ hc
  · intro hmember
    exact ⟨'%', hmember, by simp⟩

theorem unmarked_unescape {text decoded : Text} (h : unescape text = some decoded) :
    unmarked 126 (utf8Bytes text) = (utf8Bytes decoded).length := by
  have hbytes : ∀ (c : Char) (s : Text),
      utf8Bytes (c :: s) = String.utf8EncodeChar c ++ utf8Bytes s := fun _ _ => rfl
  have htilde : String.utf8EncodeChar '~' = [126] := rfl
  fun_induction unescape text generalizing decoded with
  | case1 =>
    cases h
    rfl
  | case2 rest ih =>
    obtain ⟨tail, htail, rfl⟩ := Option.map_eq_some_iff.mp h
    have hrest := ih htail
    have hzero : String.utf8EncodeChar '0' = [48] := rfl
    rw [hbytes, hbytes, hbytes, htilde, hzero]
    simp [unmarked, ← hrest]
  | case3 rest ih =>
    obtain ⟨tail, htail, rfl⟩ := Option.map_eq_some_iff.mp h
    have hrest := ih htail
    have hone : String.utf8EncodeChar '1' = [49] := rfl
    have hslash : String.utf8EncodeChar '/' = [47] := rfl
    rw [hbytes, hbytes, hbytes, htilde, hone, hslash]
    simp [unmarked, ← hrest]
  | case4 => cases h
  | case5 c rest hzero hone hne ih =>
    obtain ⟨tail, htail, rfl⟩ := Option.map_eq_some_iff.mp h
    have hrest := ih htail
    have hcount := @unmarked_utf8EncodeChar '~' (by decide) c
    rw [if_neg fun hsame => hne hsame] at hcount
    rw [hbytes, hbytes, unmarked_append, length_append, hrest]
    exact congrArg (· + _) hcount

/-! ## Decoding -/

def PlainKey (key : Points) : Prop :=
  (∀ unit, .surrogate unit ∉ key) ∧ .scalar '%' ∉ key

theorem ofText_of_scalars {key : Points} (h : ∀ unit, .surrogate unit ∉ key) :
    ∃ s, key = ofText s := by
  induction key with
  | nil => exact ⟨[], rfl⟩
  | cons point key ih =>
    have ⟨s, hs⟩ := ih fun unit hmember => h unit (mem_cons_of_mem _ hmember)
    cases point with
    | scalar c => exact ⟨c :: s, by rw [hs]; rfl⟩
    | surrogate unit => exact absurd mem_cons_self (h unit)

theorem surrogate_not_mem_ofText (s : Text) (unit : Fin 2048) :
    .surrogate unit ∉ ofText s := by
  simp [ofText]

theorem percent_mem_ofText {s : Text} : .scalar '%' ∈ ofText s ↔ '%' ∈ s := by
  simp [ofText]

theorem decode_pointerToken {key : Points} :
    (∃ token, decodePointerToken (pointerToken key) = .ok token ∧ ofText token = key) ↔
      PlainKey key := by
  constructor
  · intro ⟨token, hdecoded, hkey⟩
    subst hkey
    refine ⟨surrogate_not_mem_ofText token, ?_⟩
    rw [percent_mem_ofText, ← percent_mem_escapeText]
    rw [pointerToken_ofText] at hdecoded
    unfold decodePointerToken unquoteToBytes at hdecoded
    rw [encodeUtf8_ofText] at hdecoded
    by_cases hvalid : percentEscapesValid (ofText (escapeText token)) = true
    · rw [if_neg (not_not_intro hvalid)] at hdecoded
      simp only [Option.map_some] at hdecoded
      split at hdecoded
      · cases hdecoded
      · rename_i text htext
        split at hdecoded
        · cases hdecoded
        · rename_i decoded hunescaped
          cases hdecoded
          -- Both unescapings leave as many bytes; the escapes have lost two bytes each.
          have hshorter := @unmarked_unquoteBytes 126 (by decide) (by decide) (escapeText token)
            hvalid
          rw [decodeUtf8_eq_some htext, unmarked_unescape hunescaped,
            unmarked_unescape (unescape_escapeText token)] at hshorter
          exact count_eq_zero.mp (by omega)
    · rw [if_pos hvalid] at hdecoded
      cases hdecoded
  · intro ⟨hscalars, hpercent⟩
    obtain ⟨s, rfl⟩ := ofText_of_scalars hscalars
    refine ⟨s, ?_, rfl⟩
    rw [percent_mem_ofText, ← percent_mem_escapeText] at hpercent
    have hvalid : percentEscapesValid (ofText (escapeText s)) = true :=
      percentEscapesValid_plain (fun hmember => hpercent (percent_mem_ofText.mp hmember))
    have hbytes : 37 ∉ utf8Bytes (escapeText s) := fun hmember =>
      hpercent ((@mem_utf8Bytes_ascii '%' (by decide) (escapeText s)).mp hmember)
    rw [pointerToken_ofText]
    unfold decodePointerToken unquoteToBytes
    rw [if_neg (not_not_intro hvalid), encodeUtf8_ofText]
    simp only [Option.map_some, unquoteBytes_plain hbytes, decodeUtf8_utf8Bytes,
      unescape_escapeText]

/-! ## Pointers and nodes

Resolving the pointer of a position goes down the position exactly when all of its keys
are plain, and two nodes of a document never have one pointer.
-/

/-! ### Steps -/

def PlainStep : Step → Prop
  | .key name => PlainKey name
  | .index _ => True

/-- No key on the way holds a percent sign or a lone surrogate. -/
def Plain (position : Position) : Prop := ∀ step ∈ position, PlainStep step

theorem slash_not_mem_token (step : Step) : .scalar '/' ∉ step.token := by
  cases step with
  | key name => exact slash_not_mem_pointerToken name
  | index place =>
    intro hmember
    obtain ⟨c, hc, hslash⟩ := mem_map.mp hmember
    have hdigit := decimal_digits hc
    rw [CodePoint.scalar.inj hslash] at hdigit
    revert hdigit
    decide

theorem token_injective {value child other : Value} {first second : Step}
    (hfirst : value.child? first = some child) (hsecond : value.child? second = some other)
    (h : first.token = second.token) : first = second := by
  cases value with
  | obj members =>
    cases first with
    | index place => cases hfirst
    | key name =>
      cases second with
      | index place => cases hsecond
      | key other => rw [pointerToken_injective h]
  | arr items =>
    cases first with
    | key name => cases hfirst
    | index place =>
      cases second with
      | key name => cases hsecond
      | index other => rw [decimal_injective (ofText_injective h)]
  | _ => cases hfirst

/-! ### Tokens of a pointer -/

theorem splitOn_tokens (token : Points) (tokens : List Points) (htoken : .scalar '/' ∉ token)
    (h : ∀ other ∈ tokens, .scalar '/' ∉ other) :
    (token ++ tokens.flatMap (.scalar '/' :: ·)).splitOn (.scalar '/') = token :: tokens := by
  induction tokens generalizing token with
  | nil =>
    rw [flatMap_nil, append_nil]
    exact splitOn_eq_singleton htoken
  | cons other tokens ih =>
    rw [flatMap_cons, cons_append, splitOn_append_cons_self_of_not_mem htoken,
      ih other (h other mem_cons_self) fun later hlater =>
        h later (mem_cons_of_mem other hlater)]

theorem pointer_cons (step : Step) (position : Position) :
    pointer (step :: position) =
      .scalar '#' :: .scalar '/' ::
        (step.token ++ (position.map Step.token).flatMap (.scalar '/' :: ·)) := by
  simp [pointer, Points.of, ofText, flatMap_map]

theorem splitOn_pointer (step : Step) (position : Position) :
    ((pointer (step :: position)).drop 2).splitOn (.scalar '/') =
      (step :: position).map Step.token := by
  rw [pointer_cons, drop_succ_cons, drop_succ_cons, drop_zero]
  refine splitOn_tokens _ _ (slash_not_mem_token step) ?_
  intro token htoken
  obtain ⟨other, -, rfl⟩ := mem_map.mp htoken
  exact slash_not_mem_token other

theorem at?_append (value : Value) (first second : Position) :
    value.at? (first ++ second) = (value.at? first).bind fun child => child.at? second := by
  induction first generalizing value with
  | nil => rfl
  | cons step first ih =>
    rw [cons_append, Value.at?, Value.at?]
    cases value.child? step with
    | none => rfl
    | some child => exact ih child

theorem pointer_injective {value : Value} {first second : Position}
    (hfirst : (value.at? first).isSome) (hsecond : (value.at? second).isSome)
    (h : pointer first = pointer second) : first = second := by
  have htokens : first.map Step.token = second.map Step.token := by
    cases first with
    | nil =>
      cases second with
      | nil => rfl
      | cons step second =>
        rw [pointer_cons] at h
        cases h
    | cons step first =>
      cases second with
      | nil =>
        rw [pointer_cons] at h
        cases h
      | cons other second =>
        rw [← splitOn_pointer, ← splitOn_pointer, h]
  clear h
  induction first generalizing value second with
  | nil => exact (map_eq_nil_iff.mp htokens.symm).symm
  | cons step first ih =>
    cases second with
    | nil => cases htokens
    | cons other second =>
      have ⟨found, hfound⟩ := Option.isSome_iff_exists.mp hfirst
      have ⟨found', hfound'⟩ := Option.isSome_iff_exists.mp hsecond
      obtain ⟨child, hchild, hbelow⟩ := Option.bind_eq_some_iff.mp hfound
      obtain ⟨child', hchild', hbelow'⟩ := Option.bind_eq_some_iff.mp hfound'
      have ⟨hhead, htail⟩ := List.cons.inj htokens
      have hstep := token_injective hchild hchild' hhead
      subst hstep
      rw [hchild] at hchild'
      cases hchild'
      rw [ih (by rw [hbelow]; rfl) (by rw [hbelow']; rfl) htail]

/-! ### Resolving -/

variable {db : CharacterDatabase}

theorem isDigitText_decimal (n : Nat) : db.isDigitText (decimal n) = true := by
  have hne : decimal n ≠ [] := Nat.toDigits_ne_nil
  have hdigits : ∀ c ∈ decimal n, db.isDigit c = true := by
    intro c hc
    have hdigit := decimal_digits hc
    have hrange := digit_range hdigit
    rw [db.digit_ascii c (by omega)]
    exact hdigit
  simp only [CharacterDatabase.isDigitText, Bool.and_eq_true, all_eq_true]
  exact ⟨by simpa using hne, hdigits⟩

theorem selectChild_token {node : Node} {step : Step} {child : Value}
    (h : node.value.child? step = some child) :
    selectChild db node step.token = .ok ⟨node.position ++ [step], child⟩ ↔ PlainStep step := by
  rcases node with ⟨position, value⟩
  cases value with
  | obj members =>
    cases step with
    | index place => cases h
    | key name =>
      have hlookup : members.lookup name = some child := h
      rw [PlainStep, ← decode_pointerToken]
      unfold selectChild
      simp only [Step.token]
      constructor
      · intro hselected
        split at hselected
        · cases hselected
        · rename_i token htoken
          split at hselected
          · cases hselected
          · rename_i found hfound
            injection hselected with hnode
            have hsteps := append_cancel_left (Node.mk.inj hnode).1
            exact ⟨token, htoken, Step.key.inj (List.cons.inj hsteps).1⟩
      · rintro ⟨token, htoken, hname⟩
        rw [htoken]
        simp only [hname, hlookup]
  | arr items =>
    cases step with
    | key name => cases h
    | index place =>
      have hitem : items[place]? = some child := h
      rw [PlainStep, iff_true]
      have hplain : PlainKey (ofText (decimal place)) := by
        refine ⟨surrogate_not_mem_ofText _, ?_⟩
        rw [percent_mem_ofText]
        intro hpercent
        have hdigit := decimal_digits hpercent
        revert hdigit
        decide
      -- A decimal text is a token that escaping leaves as it is.
      have hescaped : pointerToken (ofText (decimal place)) = ofText (decimal place) := by
        rw [pointerToken_ofText]
        congr 1
        have hkept : ∀ c ∈ decimal place, (if c = '~' then ['~', '0'] else
            if c = '/' then ['~', '1'] else [c]) = [c] := by
          intro c hc
          have hrange := digit_range (decimal_digits hc)
          rw [if_neg (by intro hsame; subst hsame; revert hrange; decide),
            if_neg (by intro hsame; subst hsame; revert hrange; decide)]
        rw [escapeText, flatMap_congr hkept]
        simp
      obtain ⟨token, htoken, hsame⟩ := decode_pointerToken.mpr hplain
      rw [hescaped] at htoken
      have hdecimal := ofText_injective hsame
      subst hdecimal
      have hindex : ¬ (¬ db.isDigitText (decimal place) = true ∨
          (1 < (decimal place).length ∧ (decimal place).head? = some '0')) := by
        rw [isDigitText_decimal]
        intro hrefused
        rcases hrefused with hdigits | ⟨hlong, hzero⟩
        · exact hdigits rfl
        · have hlength := Json.decimal_head place hzero
          omega
      simp only [selectChild, Step.token, htoken, if_neg hindex, readInt_decimal,
        Int.toNat_natCast, hitem]
  | _ => cases h

theorem selectChild_child {node child : Node} {token : Points}
    (h : selectChild db node token = .ok child) :
    ∃ step, child.position = node.position ++ [step] ∧
      node.value.child? step = some child.value := by
  have ⟨position, value⟩ := node
  unfold selectChild at h
  split at h
  · cases h
  · cases value with
    | obj members =>
      simp only at h
      split at h
      · cases h
      · rename_i found hfound
        cases h
        exact ⟨_, rfl, hfound⟩
    | arr items =>
      simp only at h
      split at h
      · cases h
      · split at h
        · cases h
        · split at h
          · cases h
          · rename_i found hfound
            cases h
            exact ⟨_, rfl, hfound⟩
    | _ => cases h

theorem foldlM_position {tokens : List Points} {node found : Node}
    (h : tokens.foldlM (selectChild db) node = .ok found) :
    ∃ below, found.position = node.position ++ below := by
  induction tokens generalizing node with
  | nil =>
    cases h
    exact ⟨[], by simp⟩
  | cons token tokens ih =>
    obtain ⟨child, hchild, hrest⟩ := Guards.foldlM_cons_ok.mp h
    obtain ⟨step, hstep, -⟩ := selectChild_child hchild
    obtain ⟨below, hbelow⟩ := ih hrest
    exact ⟨step :: below, by rw [hbelow, hstep]; simp⟩

theorem foldlM_tokens {position : Position} {node : Node} {found : Value}
    (h : node.value.at? position = some found) :
    (position.map Step.token).foldlM (selectChild db) node =
        .ok ⟨node.position ++ position, found⟩ ↔ Plain position := by
  induction position generalizing node with
  | nil =>
    have hsame : node.value = found := Option.some.inj h
    subst hsame
    simp [Plain]
  | cons step position ih =>
    obtain ⟨child, hchild, hbelow⟩ := Option.bind_eq_some_iff.mp h
    have hplain : Plain (step :: position) ↔ PlainStep step ∧ Plain position :=
      forall_mem_cons
    have hrest := @ih ⟨node.position ++ [step], child⟩ hbelow
    rw [append_assoc, singleton_append] at hrest
    rw [map_cons, Guards.foldlM_cons_ok, hplain]
    constructor
    · intro ⟨next, hnext, hfold⟩
      -- The first node on the way is the child the position goes through.
      obtain ⟨below, hposition⟩ := foldlM_position hfold
      obtain ⟨taken, htaken, hvalue⟩ := selectChild_child hnext
      rw [htaken, append_assoc] at hposition
      have hstep : step = taken := (List.cons.inj (append_cancel_left hposition)).1
      subst hstep
      have hsame : next = ⟨node.position ++ [step], child⟩ := by
        rw [hchild] at hvalue
        rw [← htaken, Option.some.inj hvalue]
      subst hsame
      exact ⟨(selectChild_token hchild).mp hnext, hrest.mp hfold⟩
    · intro ⟨hselected, hlater⟩
      exact ⟨_, (selectChild_token hchild).mpr hselected, hrest.mpr hlater⟩

/-- Resolving the pointer of a node finds the node exactly when every key on the way to it
is plain. -/
theorem resolve_pointer {document found : Value} {position : Position}
    (h : document.at? position = some found) :
    resolveModelJsonPointer db document (pointer position) false = .ok ⟨position, found⟩ ↔
      Plain position := by
  have hdirect : ∀ {target : Points} {node : Node},
      resolveModelJsonPointer db document target false = .ok node ↔
        resolveJsonPointer db document target = .ok node := by
    intro target node
    unfold resolveModelJsonPointer
    cases resolveJsonPointer db document target with
    | error error => exact Iff.rfl
    | ok selected =>
      simp only
      split <;> simp
  rw [hdirect]
  cases position with
  | nil =>
    have hsame : document = found := Option.some.inj h
    subst hsame
    simp [resolveJsonPointer, pointer, Plain]
  | cons step position =>
    have hshape := pointer_cons step position
    have hroot : pointer (step :: position) ≠ Points.of "#" := by
      rw [hshape]
      simp [Points.of, ofText]
    have hfragment : (Points.of "#/").isPrefixOf (pointer (step :: position)) = true := by
      rw [hshape]
      simp [Points.of, ofText, isPrefixOf]
    unfold resolveJsonPointer
    rw [if_neg hroot, if_neg (not_not_intro hfragment), splitOn_pointer]
    have hfold := @foldlM_tokens db (step :: position) ⟨[], document⟩ found h
    rw [nil_append] at hfold
    exact hfold

end TwinForge.ModelJson
