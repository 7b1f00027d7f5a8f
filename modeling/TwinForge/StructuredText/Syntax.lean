import TwinForge.Foundation.Text

/-! # Syntax objects of the Structured Text front end

Tokens, diagnostics, expression and statement nodes, and the parsed document.
Every node carries the half-open source range it was read from.
-/

namespace TwinForge.StructuredText

/-- Lexical categories retained by the document. -/
inductive TokenKind where
  | whitespace
  | comment
  | identifier
  | literal
  | string
  | directAddress
  | assign
  | outputAssign
  | operator
  | leftParen
  | rightParen
  | leftBracket
  | rightBracket
  | comma
  | dot
  | colon
  | semicolon
  | unknown
  | endOfFile
deriving DecidableEq, Repr

structure SourceSpan where
  start : Nat
  stop : Nat
deriving DecidableEq, Repr

/-- One token with exact source text and starting location. -/
structure StructuredTextToken where
  kind : TokenKind
  text : Text
  span : SourceSpan
  line : Nat
  column : Nat
deriving DecidableEq, Repr

/-- A recoverable lexical or syntactic issue. -/
structure StructuredTextDiagnostic where
  code : Text
  message : Text
  span : SourceSpan
deriving DecidableEq, Repr

structure CallArgument (E : Type) where
  span : SourceSpan
  value : E
  name : Option Text := none
  direction : Option Text := none
deriving Repr

inductive Expression where
  | missing (span : SourceSpan)
  | name (span : SourceSpan) (name : Text)
  | directAddress (span : SourceSpan) (address : Text)
  | literal (span : SourceSpan) (value : Text)
  | unary (span : SourceSpan) (operator : Text) (operand : Expression)
  | binary (span : SourceSpan) (left : Expression) (operator : Text) (right : Expression)
  | member (span : SourceSpan) (target : Expression) (member : Text)
  | index (span : SourceSpan) (target : Expression) (indices : List Expression)
      (operator : Text)
  | call (span : SourceSpan) (callee : Expression)
      (arguments : List (CallArgument Expression))
  | parenthesized (span : SourceSpan) (expression : Expression)
deriving Repr

structure IfBranch (S : Type) where
  span : SourceSpan
  condition : Expression
  statements : List S
deriving Repr

inductive Statement where
  | assignment (span : SourceSpan) (target : Expression) (operator : Text)
      (value : Expression)
  | expression (span : SourceSpan) (expression : Expression)
  | exit (span : SourceSpan)
  | label (span : SourceSpan) (name : Text)
  | jump (span : SourceSpan) (label : Text)
  | ifThen (span : SourceSpan) (branches : List (IfBranch Statement))
      (elseStatements : List Statement)
  | whileDo (span : SourceSpan) (condition : Expression) (statements : List Statement)
  | unsupported (span : SourceSpan) (text : Text)
deriving Repr

/-- Original source, complete token stream, syntax tree, and diagnostics. -/
structure StructuredTextDocument where
  source : Text
  tokens : List StructuredTextToken
  statements : List Statement
  diagnostics : List StructuredTextDiagnostic

/-- The source rebuilt from all tokens but the end marker. -/
def StructuredTextDocument.reconstructedSource (document : StructuredTextDocument) : Text :=
  ((document.tokens.filter (fun token => token.kind != .endOfFile)).map (·.text)).flatten

namespace Expression

def span : Expression → SourceSpan
  | .missing s => s
  | .name s _ => s
  | .directAddress s _ => s
  | .literal s _ => s
  | .unary s _ _ => s
  | .binary s _ _ _ => s
  | .member s _ _ => s
  | .index s _ _ _ => s
  | .call s _ _ => s
  | .parenthesized s _ => s

/-- Induction over expression trees, with the indices and the argument values
of a node as direct subtrees. -/
@[elab_as_elim, induction_eliminator]
theorem treeInduction {P : Expression → Prop} (missing : ∀ s, P (.missing s))
    (name : ∀ s n, P (.name s n)) (directAddress : ∀ s a, P (.directAddress s a))
    (literal : ∀ s v, P (.literal s v)) (unary : ∀ s o e, P e → P (.unary s o e))
    (binary : ∀ s l o r, P l → P r → P (.binary s l o r))
    (member : ∀ s t m, P t → P (.member s t m))
    (index : ∀ s t is o, P t → (∀ i ∈ is, P i) → P (.index s t is o))
    (call : ∀ s c as, P c → (∀ a ∈ as, P a.value) → P (.call s c as))
    (parenthesized : ∀ s e, P e → P (.parenthesized s e)) (e : Expression) : P e := by
  refine @Expression.rec P (fun is => ∀ i ∈ is, P i) (fun as => ∀ a ∈ as, P a.value)
    (fun a => P a.value)
    missing name directAddress literal unary binary member index call parenthesized
    (by simp) ?_ (by simp) ?_ (fun _ _ _ _ h => h) e
  · intro head tail hhead htail i hi
    rcases List.mem_cons.mp hi with rfl | hi
    · exact hhead
    · exact htail i hi
  · intro head tail hhead htail a ha
    rcases List.mem_cons.mp ha with rfl | ha
    · exact hhead
    · exact htail a ha

end Expression

namespace Statement

def span : Statement → SourceSpan
  | .assignment s _ _ _ => s
  | .expression s _ => s
  | .exit s => s
  | .label s _ => s
  | .jump s _ => s
  | .ifThen s _ _ => s
  | .whileDo s _ _ => s
  | .unsupported s _ => s

/-- Induction over statement trees, with the statements of branches and bodies
as direct subtrees. -/
@[elab_as_elim, induction_eliminator]
theorem treeInduction {P : Statement → Prop} (assignment : ∀ s t o v, P (.assignment s t o v))
    (expression : ∀ s e, P (.expression s e)) (exit : ∀ s, P (.exit s))
    (label : ∀ s n, P (.label s n)) (jump : ∀ s l, P (.jump s l))
    (ifThen : ∀ s bs es, (∀ b ∈ bs, ∀ t ∈ b.statements, P t) → (∀ t ∈ es, P t) →
      P (.ifThen s bs es)) (whileDo : ∀ s c ss, (∀ t ∈ ss, P t) → P (.whileDo s c ss))
    (unsupported : ∀ s t, P (.unsupported s t)) (s : Statement) : P s := by
  refine @Statement.rec P (fun bs => ∀ b ∈ bs, ∀ t ∈ b.statements, P t)
    (fun ss => ∀ t ∈ ss, P t) (fun b => ∀ t ∈ b.statements, P t)
    assignment expression exit label jump ifThen whileDo unsupported
    (by simp) ?_ (by simp) ?_ (fun _ _ _ h => h) s
  · intro head tail hhead htail b hb
    rcases List.mem_cons.mp hb with rfl | hb
    · exact hhead
    · exact htail b hb
  · intro head tail hhead htail t ht
    rcases List.mem_cons.mp ht with rfl | ht
    · exact hhead
    · exact htail t ht

end Statement

end TwinForge.StructuredText
