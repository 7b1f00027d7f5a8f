import TwinForge.StructuredText.LexerLossless

/-! # The token at the front of a text

What the lexer takes next is a function of the characters left. A text that is read as one token is
read as the same token in front of any characters that do not run on from it.
-/

namespace TwinForge.StructuredText

open List

namespace Lexer

/-- A kind and a length, with the code and the message of a report. -/
structure Recognised where
  kind : TokenKind
  length : Nat
  report : Option (Text × Text) := none
deriving DecidableEq, Repr

/-- The cursor after a recognised token. -/
def Recognised.emit (found : Recognised) (lx : Lexer) : Lexer :=
  match found.report with
  | none => lx.emitted found.kind found.length
  | some (code, message) =>
    ((lx.moved found.length).report code message lx).append found.kind lx

/-! ## One function for each form -/

def recogniseComment (opening closing text : Text) : Recognised :=
  let body := text.drop opening.length
  let length := opening.length + distanceTo closing body
  if closing.isPrefixOf (body.drop (distanceTo closing body)) then
    ⟨.comment, length + closing.length, none⟩
  else ⟨.comment, length, some ("unterminated_comment", "unterminated block comment")⟩

def recogniseString (text : Text) : Recognised :=
  let body := stringBody (text.drop 1)
  if body.2 then ⟨.string, 1 + body.1, none⟩
  else ⟨.string, 1 + body.1, some ("unterminated_string", "unterminated string literal")⟩

def isOperatorPair (first second : Char) : Bool :=
  (second == '=' && (first == '<' || first == '>' || first == '=')) ||
    (first == '<' && second == '>')

def operatorLength : Text → Nat
  | first :: second :: _ => if isOperatorPair first second then 2 else 1
  | _ => 1

section

variable (db : CharacterDatabase)

def typedLength (length : Nat) (text : Text) : Nat :=
  length + 1 + literalTail db (text.drop (length + 1))

def recogniseWord (text : Text) : Recognised :=
  let length := wordLength db text
  if (text.drop length).head? = some '#' then ⟨.literal, typedLength db length text, none⟩
  else ⟨.identifier, length, none⟩

def recogniseNumber (text : Text) : Recognised :=
  let length := wordLength db text
  if (text.drop length).head? = some '#' then ⟨.literal, typedLength db length text, none⟩
  else if (text.takeWhile (isWordCharacter db)).any db.isAlpha then ⟨.identifier, length, none⟩
  else ⟨.literal, length + literalTail db (text.drop length), none⟩

def recogniseAddress (text : Text) : Recognised :=
  let letters := ((text.drop 1).takeWhile db.isAlpha).length
  let digits := ((text.drop (1 + letters)).takeWhile db.isDigit).length
  if letters = 0 ∨ digits = 0 then
    ⟨.unknown, 1 + letters + digits, some ("malformed_direct_address",
      "'%' is not followed by the evidenced <letters><digits> address shape")⟩
  else ⟨.directAddress, 1 + letters + digits, none⟩

/-- `REF=` in front of no further `=`. -/
def isReferenceAssignment (text : Text) : Bool :=
  let here := text.take 5
  db.upperText (here.take 4) == ("REF=" : Text) && here.drop 4 != ("=" : Text)

def recognise : Text → Recognised
  | [] => ⟨.endOfFile, 0, none⟩
  | character :: rest =>
    let text := character :: rest
    if db.isSpace character then ⟨.whitespace, (text.takeWhile db.isSpace).length, none⟩
    else if ("//" : Text).isPrefixOf text then ⟨.comment, lineLength text, none⟩
    else if ("/*" : Text).isPrefixOf text then recogniseComment "/*" "*/" text
    else if ("(*" : Text).isPrefixOf text then recogniseComment "(*" "*)" text
    else if character == '\'' then recogniseString text
    else if isReferenceAssignment db text then ⟨.assign, 4, none⟩
    else if db.isAlpha character || character == '_' then recogniseWord db text
    else if db.isDigit character then recogniseNumber db text
    else if character == '%' then recogniseAddress db text
    else if (":=" : Text).isPrefixOf text then ⟨.assign, 2, none⟩
    else if ("=>" : Text).isPrefixOf text then ⟨.outputAssign, 2, none⟩
    else match singleToken character with
      | some kind => ⟨kind, 1, none⟩
      | none =>
        if isOperatorCharacter character then ⟨.operator, operatorLength text, none⟩
        else ⟨.unknown, 1,
          some ("unknown_character", ("unknown character " : Text) ++ db.repr character)⟩

/-! ## The lexer takes what is recognised -/

variable {db} {lx : Lexer}

theorem blockComment_eq {opening : Text} (closing : Text) (h : lx.startsWith opening = true) :
    lx.blockComment opening closing =
      some ((recogniseComment opening closing lx.rest).emit lx) := by
  have hlen := startsWith_le lx h
  have hbody := distanceTo_le closing (lx.rest.drop opening.length)
  simp only [blockComment, Option.bind_eq_bind]
  rw [advanceBy_eq _ lx hlen, Option.bind_some, moved_rest, advanceBy_eq _ _ hbody,
    moved_moved, Option.bind_some, recogniseComment, drop_drop]
  rw [length_drop] at hbody
  have hstart : ∀ count, (lx.moved count).startsWith closing =
      closing.isPrefixOf (lx.rest.drop count) := fun _ => rfl
  rw [hstart]
  split
  · rename_i hclose
    have hclosing := length_le_of_isPrefixOf hclose
    rw [length_drop] at hclosing
    rw [advanceBy_eq _ _ (by rw [moved_rest, length_drop]; omega), moved_moved]
    rfl
  · rfl

theorem string_eq (h : 0 < lx.rest.length) :
    lx.string = some ((recogniseString lx.rest).emit lx) := by
  have hbody := stringBody_le (lx.moved 1).rest
  simp only [string, Option.bind_eq_bind]
  rw [advance_eq lx h, Option.bind_some, advanceBy_eq _ _ hbody, moved_moved, Option.bind_some,
    recogniseString, moved_rest]
  split <;> rfl

theorem wordOrTypedLiteral_eq (lx : Lexer) :
    lx.wordOrTypedLiteral db = some ((recogniseWord db lx.rest).emit lx) := by
  have hword := wordLength_le db lx.rest
  simp only [wordOrTypedLiteral, Option.bind_eq_bind]
  rw [advanceBy_eq _ lx hword, Option.bind_some, recogniseWord, moved_rest]
  split
  · rename_i hhash
    have hlt : wordLength db lx.rest < lx.rest.length := by
      by_contra hge
      rw [drop_eq_nil_of_le (by omega)] at hhash
      cases hhash
    rw [typedLiteral_eq db lx _ hlt]
    rfl
  · rfl

theorem numericLiteral_eq (lx : Lexer) :
    lx.numericLiteral db = some ((recogniseNumber db lx.rest).emit lx) := by
  have hword := wordLength_le db lx.rest
  simp only [numericLiteral, Option.bind_eq_bind]
  rw [advanceBy_eq _ lx hword, Option.bind_some, recogniseNumber, moved_rest]
  split
  · rename_i hhash
    have hlt : wordLength db lx.rest < lx.rest.length := by
      by_contra hge
      rw [drop_eq_nil_of_le (by omega)] at hhash
      cases hhash
    rw [typedLiteral_eq db lx _ hlt]
    rfl
  · split
    · rfl
    · have htail := literalTail_le db (lx.rest.drop (wordLength db lx.rest))
      rw [advanceBy_eq _ _ htail, moved_moved]
      rfl

theorem directAddress_eq (h : 0 < lx.rest.length) :
    lx.directAddress db = some ((recogniseAddress db lx.rest).emit lx) := by
  have hletters := length_takeWhile_le db.isAlpha (lx.rest.drop 1)
  simp only [directAddress, Option.bind_eq_bind]
  rw [advance_eq lx h, Option.bind_some, moved_rest, advanceBy_eq _ _ hletters, moved_moved,
    Option.bind_some, moved_rest, recogniseAddress]
  have hdigits := length_takeWhile_le db.isDigit
    (lx.rest.drop (1 + (takeWhile db.isAlpha (lx.rest.drop 1)).length))
  rw [advanceBy_eq _ _ hdigits, moved_moved, Option.bind_some]
  generalize (takeWhile db.isAlpha (lx.rest.drop 1)).length = letters
  generalize (takeWhile db.isDigit (lx.rest.drop (1 + letters))).length = digits
  have hshort : ((lx.moved (1 + letters)).position = (lx.moved 1).position ∨
      (lx.moved (1 + letters + digits)).position = (lx.moved (1 + letters)).position) ↔
        letters = 0 ∨ digits = 0 := by
    simp only [moved_position]
    omega
  by_cases hnone : letters = 0 ∨ digits = 0
  · rw [if_pos (hshort.mpr hnone), if_pos hnone]
    rfl
  · rw [if_neg (mt hshort.mp hnone), if_neg hnone]
    rfl

theorem operator_eq (h : 0 < lx.rest.length) :
    lx.operator = some (lx.emitted .operator (operatorLength lx.rest)) := by
  simp only [operator, Option.bind_eq_bind]
  rw [advance_eq lx h, Option.bind_some, moved_rest]
  cases hrest : lx.rest with
  | nil => simp [hrest] at h
  | cons first rest =>
    cases rest with
    | nil => simp [operatorLength, emitted]
    | cons second rest =>
      have hadvance : (lx.moved 1).advance = some (lx.moved 2) := by
        rw [advance_eq _ (by simp [hrest]), moved_moved]
      simp only [drop_succ_cons, drop_zero, List.head?_cons, Option.some.injEq,
        hadvance, operatorLength]
      by_cases hequals : second = '=' ∧ (first = '<' ∨ first = '>' ∨ first = '=')
      · have hpair : isOperatorPair first second = true := by
          simp [isOperatorPair, hequals.1, hequals.2, or_assoc]
        rw [if_pos hequals, if_pos hpair]
        rfl
      · by_cases hunequal : first = '<' ∧ second = '>'
        · have hpair : isOperatorPair first second = true := by
            simp [isOperatorPair, hunequal.1, hunequal.2]
          rw [if_neg hequals, if_pos hunequal, if_pos hpair]
          rfl
        · have hsingle : isOperatorPair first second = false := by
            simpa [isOperatorPair, and_assoc] using And.intro hequals hunequal
          rw [if_neg hequals, if_neg hunequal, hsingle]
          rfl

theorem nextToken_eq (h : lx.rest ≠ []) :
    lx.nextToken db = some ((recognise db lx.rest).emit lx) := by
  have hlen : 0 < lx.rest.length := length_pos_iff.mpr h
  cases hrest : lx.rest with
  | nil => exact absurd hrest h
  | cons character rest =>
    have hstarts : ∀ value : Text, lx.startsWith value = value.isPrefixOf (character :: rest) := by
      intro value
      rw [startsWith, hrest]
    have hreference : lx.startsWithReferenceAssignment db =
        isReferenceAssignment db (character :: rest) := by
      rw [startsWithReferenceAssignment, hrest]
      rfl
    unfold nextToken recognise
    simp only [hrest, hstarts, hreference]
    by_cases hspace : db.isSpace character = true
    · rw [if_pos hspace, if_pos hspace, consumeWhile, fixed_eq _ _ _ (length_takeWhile_le _ _),
        hrest]
      rfl
    rw [if_neg hspace, if_neg hspace]
    by_cases hline : ("//" : Text).isPrefixOf (character :: rest) = true
    · rw [if_pos hline, if_pos hline, lineComment, fixed_eq _ _ _ (lineLength_le _), hrest]
      rfl
    rw [if_neg hline, if_neg hline]
    by_cases hblock : ("/*" : Text).isPrefixOf (character :: rest) = true
    · rw [if_pos hblock, if_pos hblock, blockComment_eq _ (by rw [hstarts, hblock]), hrest]
    rw [if_neg hblock, if_neg hblock]
    by_cases hparen : ("(*" : Text).isPrefixOf (character :: rest) = true
    · rw [if_pos hparen, if_pos hparen, blockComment_eq _ (by rw [hstarts, hparen]), hrest]
    rw [if_neg hparen, if_neg hparen]
    by_cases hquote : (character == '\'') = true
    · rw [if_pos hquote, if_pos hquote, string_eq hlen, hrest]
    rw [if_neg hquote, if_neg hquote]
    by_cases hsign : isReferenceAssignment db (character :: rest) = true
    · obtain ⟨r, e, f, tail, htail⟩ :=
        startsWithReferenceAssignment_spelling db lx (hreference.trans hsign)
      rw [if_pos hsign, if_pos hsign, fixed_eq _ _ _ (by simp [htail])]
      rfl
    rw [if_neg hsign, if_neg hsign]
    by_cases hword : (db.isAlpha character || character == '_') = true
    · rw [if_pos hword, if_pos hword, wordOrTypedLiteral_eq, hrest]
    rw [if_neg hword, if_neg hword]
    by_cases hdigit : db.isDigit character = true
    · rw [if_pos hdigit, if_pos hdigit, numericLiteral_eq, hrest]
    rw [if_neg hdigit, if_neg hdigit]
    by_cases hpercent : (character == '%') = true
    · rw [if_pos hpercent, if_pos hpercent, directAddress_eq hlen, hrest]
    rw [if_neg hpercent, if_neg hpercent]
    by_cases hassign : (":=" : Text).isPrefixOf (character :: rest) = true
    · rw [if_pos hassign, if_pos hassign,
        fixed_eq _ 2 _ (startsWith_le lx ((hstarts _).trans hassign))]
      rfl
    rw [if_neg hassign, if_neg hassign]
    by_cases harrow : ("=>" : Text).isPrefixOf (character :: rest) = true
    · rw [if_pos harrow, if_pos harrow,
        fixed_eq _ 2 _ (startsWith_le lx ((hstarts _).trans harrow))]
      rfl
    rw [if_neg harrow, if_neg harrow]
    cases hkind : singleToken character with
    | some kind =>
      simp only [fixed_eq lx 1 kind hlen]
      rfl
    | none =>
      simp only
      split
      · rw [operator_eq hlen, hrest]
        rfl
      · rw [fixed_eq lx 1 .unknown hlen]
        rfl

/-! ## Characters that run on -/

def isPair (first second : Char) : Bool :=
  (first == '/' && (second == '/' || second == '*')) || (first == '(' && second == '*') ||
    (first == ':' && second == '=') || (first == '=' && second == '>') ||
    isOperatorPair first second

def runsOn (db : CharacterDatabase) (kind : TokenKind) (text next : Text) : Bool :=
  (isReferenceAssignment db (text ++ next) != isReferenceAssignment db text) ||
    (match text, next with
      | [first], second :: _ => isPair first second
      | _, _ => false) ||
    match kind with
    | .identifier => next.head?.any fun character => isWordCharacter db character || character == '#'
    | .literal => 0 < literalTail db next
    | .string => next.head? == some '\''
    | .directAddress => next.head?.any db.isDigit
    | _ => false

variable {text next : Text}

theorem stringBody_append (h : stringBody text = (text.length, true))
    (hnext : next.head? ≠ some '\'') : stringBody (text ++ next) = (text.length, true) := by
  fun_induction stringBody text with
  | case1 => simp at h
  | case2 rest ih =>
    simp only [length_cons, Prod.mk.injEq] at h
    have hrest := ih (Prod.ext (by omega) h.2)
    simp [stringBody, hrest]
  | case3 tail hsingle =>
    simp only [length_cons, Prod.mk.injEq, and_true] at h
    have hnil : tail = [] := eq_nil_of_length_eq_zero (by omega)
    subst hnil
    cases next with
    | nil => rfl
    | cons first next =>
      have hfirst : first ≠ '\'' := by simpa using hnext
      simp [stringBody, hfirst]
  | case4 character rest hquoted hquote ih =>
    simp only [length_cons, Prod.mk.injEq] at h
    have hrest := ih (Prod.ext (by omega) h.2)
    rw [cons_append, stringBody.eq_4 _ _ (fun _ heq => absurd heq hquote) hquote, hrest]
    rfl

theorem literalTail_append (next : Text) (h : literalTail db text = text.length) :
    literalTail db (text ++ next) = text.length + literalTail db next := by
  induction text with
  | nil => simp
  | cons character rest ih =>
    rw [cons_append, literalTail]
    rw [literalTail, length_cons] at h
    split at h
    · next hword =>
      rw [if_pos hword, ih (by omega), length_cons]
      omega
    · next hword =>
      split at h
      · next hsign =>
        have hhead : (rest ++ next).head?.any db.isDigit = rest.head?.any db.isDigit := by
          cases rest with
          | nil => simp at hsign
          | cons => rfl
        rw [if_neg hword, hhead, if_pos hsign, ih (by omega), length_cons]
        omega
      · omega

theorem literalTail_pos {character : Char} {rest : Text}
    (h : (isWordCharacter db character || character == '#') = true) :
    0 < literalTail db (character :: rest) := by
  rw [literalTail, if_pos]
  · omega
  · simp only [isWordCharacter] at h
    simp [h]

theorem wordLength_append {text next : Text} (h : wordLength db text < text.length ∨
      next.head?.any (isWordCharacter db) = false) :
    wordLength db (text ++ next) = wordLength db text := by
  unfold wordLength at h ⊢
  rw [takeWhile_append]
  split
  · next hall =>
    have hnone : next.takeWhile (isWordCharacter db) = [] := by
      cases next with
      | nil => rfl
      | cons first next =>
        rw [hall] at h
        simp at h
        simp [h]
    rw [hnone, append_nil, ← hall]
  · rfl

variable {kind : TokenKind}

theorem runsOn_word
    (hkind : kind = .identifier ∨ kind = .literal) (h : runsOn db kind text next = false) :
    next.head?.any (isWordCharacter db) = false ∧ next.head? ≠ some '#' := by
  unfold runsOn at h
  simp only [Bool.or_eq_false_iff] at h
  cases next with
  | nil => simp
  | cons first next =>
    obtain rfl | rfl := hkind
    · simpa using h.2
    · have hnone := h.2
      by_contra hfirst
      have hpos : 0 < literalTail db (first :: next) := by
        apply literalTail_pos
        simpa [or_iff_not_imp_left] using hfirst
      simp [hpos] at hnone

variable {length : Nat}

theorem typedLength_append (hlength : length < text.length)
    (h : typedLength db length text = text.length) :
    typedLength db length (text ++ next) = text.length + literalTail db next := by
  unfold typedLength at h ⊢
  rw [drop_append_of_le_length (by omega), literalTail_append next]
  · rw [length_drop]
    omega
  · rw [length_drop]
    omega

theorem literalTail_of_runsOn (h : runsOn db .literal text next = false) :
    literalTail db next = 0 := by
  unfold runsOn at h
  simp only [Bool.or_eq_false_iff, decide_eq_false_iff_not] at h
  omega

theorem hash_lt (h : (text.drop length).head? = some '#') :
    length < text.length := by
  by_contra hge
  rw [drop_eq_nil_of_le (by omega)] at h
  cases h

theorem hash_append (next : Text) (h : length < text.length) :
    ((text ++ next).drop length).head? = (text.drop length).head? := by
  rw [drop_append_of_le_length (by omega), List.head?_append_of_ne_nil]
  intro hnil
  rw [drop_eq_nil_iff] at hnil
  omega

theorem recogniseWord_append (h : recogniseWord db text = ⟨kind, text.length, none⟩)
    (hruns : runsOn db kind text next = false) :
    recogniseWord db (text ++ next) = ⟨kind, text.length, none⟩ := by
  unfold recogniseWord at h ⊢
  simp only at h ⊢
  split at h
  · next hhash =>
    have hlt := hash_lt hhash
    simp only [Recognised.mk.injEq, and_true] at h
    obtain ⟨rfl, hlength⟩ := h
    rw [wordLength_append (.inl hlt), hash_append _ hlt, if_pos hhash, typedLength_append hlt hlength,
      literalTail_of_runsOn hruns]
    rfl
  · next hhash =>
    simp only [Recognised.mk.injEq, and_true] at h
    obtain ⟨rfl, hlength⟩ := h
    obtain ⟨hword, hnext⟩ := runsOn_word (.inl rfl) hruns
    rw [wordLength_append (.inr hword), hlength, drop_left, if_neg hnext]

theorem recogniseNumber_append (h : recogniseNumber db text = ⟨kind, text.length, none⟩)
    (hruns : runsOn db kind text next = false) :
    recogniseNumber db (text ++ next) = ⟨kind, text.length, none⟩ := by
  unfold recogniseNumber at h ⊢
  simp only at h ⊢
  split at h
  · next hhash =>
    have hlt := hash_lt hhash
    simp only [Recognised.mk.injEq, and_true] at h
    obtain ⟨rfl, hlength⟩ := h
    rw [wordLength_append (.inl hlt), hash_append _ hlt, if_pos hhash, typedLength_append hlt hlength,
      literalTail_of_runsOn hruns]
    rfl
  · next hhash =>
    have hkind : kind = .identifier ∨ kind = .literal := by
      split at h <;> simp_all
    obtain ⟨hword, hnext⟩ := runsOn_word hkind hruns
    have hsame := @wordLength_append db text next (.inr hword)
    have htake : (text ++ next).takeWhile (isWordCharacter db) =
        text.takeWhile (isWordCharacter db) := by
      have hbegin : text.takeWhile (isWordCharacter db) <+:
          (text ++ next).takeWhile (isWordCharacter db) := by
        rw [takeWhile_append]
        split
        · next hall =>
          rw [( takeWhile_prefix _).eq_of_length hall]
          exact prefix_append ..
        · exact prefix_refl _
      exact (hbegin.eq_of_length hsame.symm).symm
    have hopen : ((text ++ next).drop (wordLength db text)).head? ≠ some '#' := by
      by_cases hlt : wordLength db text < text.length
      · rw [hash_append _ hlt]
        exact hhash
      · have hle := wordLength_le db text
        rw [drop_append_of_le_length hle, drop_eq_nil_of_le (by omega), nil_append]
        exact hnext
    rw [hsame, if_neg hopen, htake]
    split at h
    · next hletter =>
      rw [if_pos hletter]
      exact h
    · next hletter =>
      rw [if_neg hletter]
      simp only [Recognised.mk.injEq, and_true] at h ⊢
      obtain ⟨rfl, hlength⟩ := h
      have hle := wordLength_le db text
      have htail : literalTail db (text.drop (wordLength db text)) =
          (text.drop (wordLength db text)).length := by
        rw [length_drop]
        omega
      rw [drop_append_of_le_length hle, literalTail_append next htail,
        literalTail_of_runsOn hruns, length_drop]
      constructor
      · rfl
      · omega

theorem takeWhile_of_head {p : Char → Bool} (h : next.head?.any p = false) :
    next.takeWhile p = [] := by
  cases next with
  | nil => rfl
  | cons first next =>
    have hfirst : p first = false := h
    simp [hfirst]

theorem recogniseAddress_append (h : recogniseAddress db text = ⟨kind, text.length, none⟩)
    (hruns : runsOn db kind text next = false) :
    recogniseAddress db (text ++ next) = ⟨kind, text.length, none⟩ := by
  unfold recogniseAddress at h ⊢
  simp only at h ⊢
  split at h
  · simp at h
  · next hlong =>
    simp only [Recognised.mk.injEq, and_true] at h
    obtain ⟨rfl, hlength⟩ := h
    have hnext : next.head?.any db.isDigit = false := by
      unfold runsOn at hruns
      simp only [Bool.or_eq_false_iff] at hruns
      exact hruns.2
    have hletters : ((text ++ next).drop 1).takeWhile db.isAlpha =
        (text.drop 1).takeWhile db.isAlpha := by
      rw [drop_append_of_le_length (by omega), takeWhile_append, if_neg]
      rw [length_drop]
      omega
    rw [hletters]
    generalize ((text.drop 1).takeWhile db.isAlpha).length = letters at hlength hlong ⊢
    have hdigits : ((text ++ next).drop (1 + letters)).takeWhile db.isDigit =
        (text.drop (1 + letters)).takeWhile db.isDigit := by
      rw [drop_append_of_le_length (by omega), takeWhile_append, takeWhile_of_head hnext,
        append_nil]
      split
      · next hall => exact (( takeWhile_prefix _).eq_of_length hall).symm
      · rfl
    rw [hdigits, if_neg hlong, hlength]

/-! ## A token in front of other characters -/

theorem runsOn_reference (h : runsOn db kind text next = false) :
    isReferenceAssignment db (text ++ next) = isReferenceAssignment db text := by
  unfold runsOn at h
  simp only [Bool.or_eq_false_iff, bne_eq_false_iff_eq] at h
  exact h.1.1

theorem runsOn_pair {first second : Char}
    (h : runsOn db kind [first] (second :: next) = false) : isPair first second = false := by
  unfold runsOn at h
  simp only [Bool.or_eq_false_iff] at h
  exact h.1.2

theorem recogniseComment_kind {opening closing : Text} {report : Option (Text × Text)}
    (h : recogniseComment opening closing text = ⟨kind, length, report⟩) : kind = .comment := by
  unfold recogniseComment at h
  simp only at h
  split at h <;> (rw [Recognised.mk.injEq] at h; exact h.1.symm)

theorem recogniseString_append (h : recogniseString text = ⟨kind, text.length, none⟩)
    (hruns : runsOn db kind text next = false) :
    recogniseString (text ++ next) = ⟨kind, text.length, none⟩ := by
  cases text with
  | nil => simp [recogniseString, stringBody] at h
  | cons quote body =>
    unfold recogniseString at h ⊢
    simp only [cons_append, drop_succ_cons, drop_zero] at h ⊢
    split at h
    · next hclosed =>
      simp only [Recognised.mk.injEq, and_true, length_cons] at h
      obtain ⟨rfl, hlength⟩ := h
      have hnext : next.head? ≠ some '\'' := by
        unfold runsOn at hruns
        simp only [Bool.or_eq_false_iff, beq_eq_false_iff_ne] at hruns
        exact hruns.2
      rw [stringBody_append (Prod.ext (by omega) hclosed) hnext]
      simp [Nat.add_comm]
    · simp at h

theorem operatorLength_append (hne : text ≠ []) (hruns : runsOn db kind text next = false) :
    operatorLength (text ++ next) = operatorLength text := by
  match text, next with
  | [], _ => exact absurd rfl hne
  | [first], [] => rfl
  | [first], second :: next =>
    have happart := runsOn_pair hruns
    have hsingle : isOperatorPair first second = false := by
      unfold isPair at happart
      exact (Bool.or_eq_false_iff.mp happart).2
    simp [operatorLength, hsingle]
  | first :: second :: rest, next => rfl

theorem isPrefixOf_append {first second character : Char} {rest : Text}
    (hpair : isPair first second = true) (hruns : runsOn db kind (character :: rest) next = false) :
    [first, second].isPrefixOf (character :: (rest ++ next)) =
      [first, second].isPrefixOf (character :: rest) := by
  cases rest with
  | cons => simp [isPrefixOf]
  | nil =>
    cases next with
    | nil => rfl
    | cons head next =>
      have happart := runsOn_pair hruns
      simp only [isPrefixOf, nil_append, Bool.and_false, Bool.and_true,
        Bool.and_eq_false_iff, beq_eq_false_iff_ne]
      by_contra hmeet
      simp only [not_or, not_not] at hmeet
      rw [← hmeet.1, ← hmeet.2, hpair] at happart
      cases happart

/-- A text read as one token is read so wherever the characters behind it do not run on. -/
theorem recognise_append (hne : text ≠ []) (h : recognise db text = ⟨kind, text.length, none⟩)
    (hkind : kind ≠ .whitespace ∧ kind ≠ .comment) (hruns : runsOn db kind text next = false) :
    recognise db (text ++ next) = ⟨kind, text.length, none⟩ := by
  cases text with
  | nil => exact absurd rfl hne
  | cons character rest =>
    have hreference := runsOn_reference hruns
    rw [cons_append] at hreference ⊢
    have hline : ("//" : Text).isPrefixOf (character :: (rest ++ next)) =
        ("//" : Text).isPrefixOf (character :: rest) := isPrefixOf_append (by decide) hruns
    have hblock : ("/*" : Text).isPrefixOf (character :: (rest ++ next)) =
        ("/*" : Text).isPrefixOf (character :: rest) := isPrefixOf_append (by decide) hruns
    have hparen : ("(*" : Text).isPrefixOf (character :: (rest ++ next)) =
        ("(*" : Text).isPrefixOf (character :: rest) := isPrefixOf_append (by decide) hruns
    have hassign : (":=" : Text).isPrefixOf (character :: (rest ++ next)) =
        (":=" : Text).isPrefixOf (character :: rest) := isPrefixOf_append (by decide) hruns
    have harrow : ("=>" : Text).isPrefixOf (character :: (rest ++ next)) =
        ("=>" : Text).isPrefixOf (character :: rest) := isPrefixOf_append (by decide) hruns
    unfold recognise at h ⊢
    simp only at h ⊢
    rw [hline, hblock, hparen, hreference, hassign, harrow]
    by_cases hspace : db.isSpace character = true
    · rw [if_pos hspace] at h
      simp only [Recognised.mk.injEq] at h
      exact absurd h.1.symm hkind.1
    rw [if_neg hspace] at h ⊢
    by_cases hline : ("//" : Text).isPrefixOf (character :: rest) = true
    · rw [if_pos hline] at h
      simp only [Recognised.mk.injEq] at h
      exact absurd h.1.symm hkind.2
    rw [if_neg hline] at h ⊢
    by_cases hblock : ("/*" : Text).isPrefixOf (character :: rest) = true
    · rw [if_pos hblock] at h
      exact absurd (recogniseComment_kind h) hkind.2
    rw [if_neg hblock] at h ⊢
    by_cases hparen : ("(*" : Text).isPrefixOf (character :: rest) = true
    · rw [if_pos hparen] at h
      exact absurd (recogniseComment_kind h) hkind.2
    rw [if_neg hparen] at h ⊢
    by_cases hquote : (character == '\'') = true
    · rw [if_pos hquote] at h ⊢
      exact recogniseString_append h hruns
    rw [if_neg hquote] at h ⊢
    by_cases hsign : isReferenceAssignment db (character :: rest) = true
    · rw [if_pos hsign] at h ⊢
      exact h
    rw [if_neg hsign] at h ⊢
    by_cases hword : (db.isAlpha character || character == '_') = true
    · rw [if_pos hword] at h ⊢
      exact recogniseWord_append h hruns
    rw [if_neg hword] at h ⊢
    by_cases hdigit : db.isDigit character = true
    · rw [if_pos hdigit] at h ⊢
      exact recogniseNumber_append h hruns
    rw [if_neg hdigit] at h ⊢
    by_cases hpercent : (character == '%') = true
    · rw [if_pos hpercent] at h ⊢
      exact recogniseAddress_append h hruns
    rw [if_neg hpercent] at h ⊢
    by_cases hassign : (":=" : Text).isPrefixOf (character :: rest) = true
    · rw [if_pos hassign] at h ⊢
      exact h
    rw [if_neg hassign] at h ⊢
    by_cases harrow : ("=>" : Text).isPrefixOf (character :: rest) = true
    · rw [if_pos harrow] at h ⊢
      exact h
    rw [if_neg harrow] at h ⊢
    cases hsingle : singleToken character with
    | some kind =>
      rw [hsingle] at h
      exact h
    | none =>
      rw [hsingle] at h
      simp only at h ⊢
      split at h
      · next hoperator =>
        rw [if_pos hoperator, ← cons_append, operatorLength_append (by simp) hruns]
        exact h
      · simp at h

/-! ## A blank ends every token -/

theorem blank_classes (db : CharacterDatabase) :
    isWordCharacter db ' ' = false ∧ db.isDigit ' ' = false ∧ db.upper ' ' = [' '] := by
  refine ⟨?_, ?_, ?_⟩
  · rw [isWordCharacter, db.alnum_ascii ' ' (by decide)]
    decide
  · rw [db.digit_ascii ' ' (by decide)]
    decide
  · rw [db.upper_ascii ' ' (by decide)]
    decide

theorem isReferenceAssignment_of_blank (h : ' ' ∈ (text.take 5).take 4) :
    isReferenceAssignment db text = false := by
  have hblank : ' ' ∈ db.upperText ((text.take 5).take 4) := by
    unfold CharacterDatabase.upperText
    rw [mem_flatMap]
    exact ⟨' ', h, by rw [(blank_classes db).2.2]; simp⟩
  have hother : db.upperText ((text.take 5).take 4) ≠ ("REF=" : Text) := by
    intro heq
    rw [heq] at hblank
    revert hblank
    decide
  simp [isReferenceAssignment, hother]

theorem isReferenceAssignment_short (h : text.length < 4) :
    isReferenceAssignment db text = false := by
  have hother : db.upperText text ≠ ("REF=" : Text) := by
    intro heq
    obtain ⟨r, e, f, rfl⟩ := db.upper_reference text heq
    simp at h
  have htake : (text.take 5).take 4 = text := by
    rw [take_of_length_le (by simp; omega), take_of_length_le (by omega)]
  simp [isReferenceAssignment, htake, hother]

theorem isReferenceAssignment_blank (text next : Text) :
    isReferenceAssignment db (text ++ ' ' :: next) = isReferenceAssignment db text := by
  by_cases hshort : text.length < 4
  · rw [isReferenceAssignment_short hshort]
    apply isReferenceAssignment_of_blank
    obtain ⟨room, hroom⟩ : ∃ room, 4 - text.length = room + 1 := ⟨3 - text.length, by omega⟩
    rw [take_take, Nat.min_eq_left (by omega), take_append, hroom]
    simp
  · by_cases hfour : text.length = 4
    · have hfive : (text ++ ' ' :: next).take 5 = text ++ [' '] := by
        rw [take_append, take_of_length_le (by omega), hfour]
        rfl
      have hwhole : text.take 5 = text := take_of_length_le (by omega)
      have hfront : (text ++ [' ']).take 4 = text.take 4 :=
        take_append_of_le_length (by omega)
      have hback : (text ++ [' ']).drop 4 = [' '] := by
        rw [← hfour, drop_left]
      have hnone : text.drop 4 = [] := drop_eq_nil_of_le (by omega)
      simp only [isReferenceAssignment, hfive, hwhole, hfront, hback, hnone]
      rfl
    · have hfive : (text ++ ' ' :: next).take 5 = text.take 5 :=
        take_append_of_le_length (by omega)
      simp only [isReferenceAssignment, hfive]

theorem runsOn_blank (kind : TokenKind) (text next : Text) :
    runsOn db kind text (' ' :: next) = false := by
  have hpair : ∀ first, isPair first ' ' = false := by
    intro first
    simp [isPair, isOperatorPair]
  obtain ⟨hword, hdigit, _⟩ := blank_classes db
  have htail : literalTail db (' ' :: next) = 0 := by
    have halnum : db.isAlnum ' ' = false := (Bool.or_eq_false_iff.mp hword).1
    simp [literalTail, halnum]
  unfold runsOn
  rw [isReferenceAssignment_blank, bne_self_eq_false, Bool.false_or, Bool.or_eq_false_iff]
  constructor
  · rcases text with _ | ⟨first, _ | _⟩
    · rfl
    · exact hpair first
    · rfl
  · cases kind <;> simp [hword, hdigit, htail]

theorem runsOn_nil (kind : TokenKind) (text : Text) : runsOn db kind text [] = false := by
  unfold runsOn
  rw [append_nil, bne_self_eq_false, Bool.false_or, Bool.or_eq_false_iff]
  constructor
  · match text with
    | [] => rfl
    | [_] => rfl
    | _ :: _ :: _ => rfl
  · cases kind <;> rfl

end

end Lexer

end TwinForge.StructuredText
