import TwinForge.Discovery.Topology
import TwinForge.Foundation.Delimiters
import TwinForge.Foundation.JsonRoundTrip

/-! # Declared CIP routes and the keys that permit them

A permit names routes by their keys. The key of a segment ends with its link, and a text
link is written as it is: a key can be read as another route exactly where a text link, or
the gateway's address, can be continued or broken off at a place that looks like the
start of a segment.
-/

namespace TwinForge.Discovery

open Guards List

/-! ## Routes -/

inductive RouteLink where
  | integer (value : Nat)
  | text (value : Text) (nonempty : value ≠ [])
  | bytes (value : List UInt8) (nonempty : value ≠ [])
  deriving DecidableEq

structure CipRouteSegment where
  port : Nat
  link : RouteLink
  port_pos : 0 < port
  port_le : port ≤ 0xFFFF
  deriving DecidableEq

def hexText (value : List UInt8) : Text := value.flatMap fun byte => Ascii.hexByte byte.toNat

def RouteLink.key : RouteLink → Text
  | .integer value => ("integer:" : Text) ++ decimal value
  | .text value _ => ("text:" : Text) ++ value
  | .bytes value _ => ("bytes:" : Text) ++ hexText value

def CipRouteSegment.key (segment : CipRouteSegment) : Text :=
  ("port:" : Text) ++ decimal segment.port ++ ("|link:" : Text) ++ segment.link.key

/-- A text that keeps its first and its last character. -/
def Trimmed (db : CharacterDatabase) (text : Text) : Prop := db.strip text = text

instance (db : CharacterDatabase) (text : Text) : Decidable (Trimmed db text) :=
  inferInstanceAs (Decidable (_ = _))

structure CipRouteDeclaration (db : CharacterDatabase) where
  gateway : DiscoveryTarget
  segments : List CipRouteSegment
  maximumDepth : Nat
  label : Option Text := none
  address_nonempty : gateway.address ≠ []
  address_trimmed : Trimmed db gateway.address
  gateway_route : gateway.route = []
  segments_nonempty : segments ≠ []
  within_depth : segments.length ≤ maximumDepth
  label_trimmed : ∀ text ∈ label, Trimmed db text

def pathKey (segments : List CipRouteSegment) : Text :=
  joinText "/" (segments.map CipRouteSegment.key)

def CipRouteDeclaration.key {db : CharacterDatabase} (route : CipRouteDeclaration db) : Text :=
  route.gateway.key ++ '|' :: pathKey route.segments

def SameRoute {db : CharacterDatabase} (first second : CipRouteDeclaration db) : Prop :=
  first.gateway.address = second.gateway.address ∧
    first.gateway.route = second.gateway.route ∧ first.segments = second.segments

/-! ## Permits -/

structure RoutedExecutionPermit where
  authorizationReference : Text
  allowedRouteKeys : List Text
  keys_nonempty : allowedRouteKeys ≠ []
  keys_nodup : allowedRouteKeys.Nodup

structure DiscoveryProviderError where
  code : Text
  message : Text
  deriving DecidableEq, Repr

/-- Require one matching permit to contain every intended route. -/
def validateRoutedExecution (permit : Option RoutedExecutionPermit)
    (authorizationReference : Text) (routeKeys : List Text) :
    Except DiscoveryProviderError Unit := do
  match permit with
  | none =>
    .error { code := "cip_routed_execution_not_confirmed"
             message := "routed CIP execution requires an explicit operator permit" }
  | some permit =>
    refuse (permit.authorizationReference ≠ authorizationReference)
      { code := "cip_authorization_reference_mismatch"
        message := "operator permit does not match the provider authorization" }
    let missing := sortedSet (routeKeys.filter fun key => key ∉ permit.allowedRouteKeys)
    refuse (missing ≠ [])
      { code := "cip_route_not_confirmed"
        message := ("route is allowlisted but absent from the operator permit: " : Text) ++
          joinText ", " missing }

/-- A permit holds the keys of the routes that were confirmed. -/
structure Confirmation (db : CharacterDatabase) where
  confirmed : List (CipRouteDeclaration db)
  permit : RoutedExecutionPermit
  keys : permit.allowedRouteKeys = confirmed.map CipRouteDeclaration.key

theorem validated_keys {permit : RoutedExecutionPermit} {reference : Text} {keys : List Text} :
    validateRoutedExecution (some permit) reference keys = .ok () ↔
      permit.authorizationReference = reference ∧ ∀ key ∈ keys, key ∈ permit.allowedRouteKeys := by
  simp only [validateRoutedExecution, bind_eq_ok, refuse_eq_ok, exists_unit, ne_eq, not_not]
  refine and_congr_right fun _ => ?_
  constructor
  · intro hnone key hkey
    by_contra habsent
    have hmember : key ∈ sortedSet (keys.filter fun key => key ∉ permit.allowedRouteKeys) := by
      simpa using ⟨hkey, habsent⟩
    rw [hnone] at hmember
    simp at hmember
  · intro hall
    rw [eq_nil_iff_forall_not_mem]
    intro key hkey
    have hmissing := mem_filter.mp (mem_sortedSet.mp hkey)
    simp [hall key hmissing.1] at hmissing

/-! ## Reading a key -/

def textOpening (port : Nat) : Text :=
  ("port:" : Text) ++ decimal port ++ ("|link:text:" : Text)

def pathTail (segments : List CipRouteSegment) : Text :=
  match segments with
  | [] => []
  | segments => '/' :: pathKey segments

def pathFront (segments : List CipRouteSegment) : Text :=
  segments.flatMap fun segment => segment.key ++ ['/']

theorem pathKey_cons (segment : CipRouteSegment) (rest : List CipRouteSegment) :
    pathKey (segment :: rest) = segment.key ++ pathTail rest := by
  cases rest with
  | nil => simp [pathKey, joinText, pathTail]
  | cons next rest => simp [pathKey, joinText, pathTail, intercalate, Text.of]

variable {segments : List CipRouteSegment}

theorem pathTail_of_ne_nil (h : segments ≠ []) :
    pathTail segments = '/' :: pathKey segments := by
  cases segments with
  | nil => exact absurd rfl h
  | cons segment rest => rfl

theorem pathKey_append (front : List CipRouteSegment)
    (h : segments ≠ []) : pathKey (front ++ segments) = pathFront front ++ pathKey segments := by
  induction front with
  | nil => rfl
  | cons segment front ih =>
    have hne : front ++ segments ≠ [] := by simp [h]
    rw [cons_append, pathKey_cons, pathTail_of_ne_nil hne, ih]
    simp [pathFront]

def RouteLink.isText : RouteLink → Bool
  | .text _ _ => true
  | _ => false

theorem digitChar_free {n : Nat} (h : n < 16) :
    Nat.digitChar n ≠ '|' ∧ Nat.digitChar n ≠ '/' := by
  interval_cases n <;> decide

theorem mem_hexText {value : List UInt8} {c : Char} (h : c ∈ hexText value) :
    ∃ n < 16, c = Nat.digitChar n := by
  obtain ⟨byte, -, hc⟩ := mem_flatMap.mp h
  have hbound := byte.toNat_lt
  simp only [Ascii.hexByte, mem_cons, not_mem_nil, or_false] at hc
  rcases hc with hc | hc
  · exact ⟨byte.toNat / 16, by omega, hc⟩
  · exact ⟨byte.toNat % 16, by omega, hc⟩

theorem hexText_injective {first second : List UInt8} (h : hexText first = hexText second) :
    first = second := by
  induction first generalizing second with
  | nil =>
    cases second with
    | nil => rfl
    | cons byte second => simp [hexText, Ascii.hexByte] at h
  | cons byte first ih =>
    cases second with
    | nil => simp [hexText, Ascii.hexByte] at h
    | cons other second =>
      have hbound := byte.toNat_lt
      have hother := other.toNat_lt
      simp only [hexText, Ascii.hexByte, flatMap_cons, cons_append, nil_append,
        List.cons.injEq] at h
      have hhigh := congrArg Json.hexValue h.1
      have hlow := congrArg Json.hexValue h.2.1
      rw [Json.hexValue_digitChar (by omega), Json.hexValue_digitChar (by omega),
        Option.some.injEq] at hhigh hlow
      have hbyte : byte = other := UInt8.toNat_inj.mp (by omega)
      rw [hbyte, ih h.2.2]

theorem decimal_free {n : Nat} {c : Char} (hc : c.isDigit = false) : c ∉ decimal n := by
  intro h
  rw [Json.decimal_isDigit h] at hc
  cases hc

theorem RouteLink.key_free {link : RouteLink} (h : link.isText = false) :
    '|' ∉ link.key ∧ '/' ∉ link.key := by
  cases link with
  | text value nonempty => cases h
  | integer value =>
    have hbar : '|' ∉ decimal value := decimal_free rfl
    have hslash : '/' ∉ decimal value := decimal_free rfl
    simp [RouteLink.key, Text.of, hbar, hslash]
  | bytes value nonempty =>
    have hbar : '|' ∉ hexText value := by
      intro hmember
      obtain ⟨n, hn, hc⟩ := mem_hexText hmember
      exact (digitChar_free hn).1 hc.symm
    have hslash : '/' ∉ hexText value := by
      intro hmember
      obtain ⟨n, hn, hc⟩ := mem_hexText hmember
      exact (digitChar_free hn).2 hc.symm
    simp [RouteLink.key, Text.of, hbar, hslash]

theorem RouteLink.key_injective {first second : RouteLink} (hfirst : first.isText = false)
    (hsecond : second.isText = false) (h : first.key = second.key) : first = second := by
  cases first with
  | text value nonempty => cases hfirst
  | integer value =>
    cases second with
    | text other nonempty => cases hsecond
    | bytes other nonempty => simp [RouteLink.key, Text.of] at h
    | integer other =>
      rw [RouteLink.key, RouteLink.key, append_cancel_left_eq] at h
      rw [decimal_injective h]
  | bytes value nonempty =>
    cases second with
    | text other nonempty => cases hsecond
    | integer other => simp [RouteLink.key, Text.of] at h
    | bytes other nonempty' =>
      rw [RouteLink.key, RouteLink.key, append_cancel_left_eq] at h
      simp only [RouteLink.bytes.injEq]
      exact hexText_injective h

theorem pathTail_split {rest : List CipRouteSegment} {front back : Text}
    (h : pathTail rest = front ++ '|' :: back) :
    ∃ remaining, front = '/' :: remaining ∧ pathKey rest = remaining ++ '|' :: back := by
  cases rest with
  | nil => simp [pathTail] at h
  | cons next rest =>
    cases front with
    | nil => simp [pathTail] at h
    | cons c front =>
      simp only [pathTail, cons_append, List.cons.injEq] at h
      exact ⟨front, by rw [h.1], h.2⟩

theorem segment_split {segment : CipRouteSegment} {rest : List CipRouteSegment}
    {front back : Text} (h : segment.key ++ pathTail rest = front ++ '|' :: '|' :: back) :
    (∃ remaining, front = segment.key ++ '/' :: remaining ∧
      pathKey rest = remaining ++ '|' :: '|' :: back) ∨
    ∃ opened closed nonempty, segment.link = .text (opened ++ '|' :: '|' :: closed) nonempty ∧
      front = textOpening segment.port ++ opened ∧ back = closed ++ pathTail rest := by
  have hport : '|' ∉ ("port:" : Text) ++ decimal segment.port := by
    have hbar : '|' ∉ decimal segment.port := decimal_free rfl
    simp [Text.of, hbar]
  have hkey : segment.key ++ pathTail rest =
      (("port:" : Text) ++ decimal segment.port) ++
        '|' :: (("link:" : Text) ++ (segment.link.key ++ pathTail rest)) := by
    simp [CipRouteSegment.key, Text.of]
  rw [hkey] at h
  obtain ⟨afterPort, hfront, hrest⟩ := Delimiters.after_run hport h
  cases afterPort with
  | nil => simp [Text.of] at hrest
  | cons c afterPort =>
    rw [cons_append, List.cons.injEq] at hrest
    obtain ⟨hc, hrest⟩ := hrest
    by_cases htext : segment.link.isText = true
    · cases hlink : segment.link with
      | integer value => simp [hlink, RouteLink.isText] at htext
      | bytes value nonempty => simp [hlink, RouteLink.isText] at htext
      | text value nonempty =>
        have hopening : '|' ∉ ("link:text:" : Text) := by simp [Text.of]
        have hvalue : ("link:text:" : Text) ++ (value ++ pathTail rest) =
            afterPort ++ '|' :: '|' :: back := by
          rw [← hrest, hlink]
          simp [RouteLink.key, Text.of]
        obtain ⟨inside, hafter, hvalue⟩ := Delimiters.after_run hopening hvalue
        rcases append_eq_append_iff.mp hvalue with
          ⟨after, hinside, htail⟩ | ⟨cut, hcut, hback⟩
        · obtain ⟨remaining, hremaining, hpath⟩ := pathTail_split htail
          refine .inl ⟨remaining, ?_, hpath⟩
          rw [hfront, ← hc, hafter, hinside, hremaining, CipRouteSegment.key, hlink]
          simp [RouteLink.key, Text.of]
        · refine .inr ?_
          cases cut with
          | nil =>
            obtain ⟨remaining, hremaining, -⟩ := @pathTail_split _ [] _ hback.symm
            cases hremaining
          | cons first cut =>
            rw [cons_append, List.cons.injEq] at hback
            cases cut with
            | nil =>
              obtain ⟨remaining, hremaining, -⟩ :=
                @pathTail_split _ [] _ hback.2.symm
              cases hremaining
            | cons second cut =>
              rw [cons_append, List.cons.injEq] at hback
              obtain ⟨hfirst, hsecond, hback⟩ := hback
              subst hfirst hsecond hcut
              refine ⟨inside, cut, nonempty, rfl, ?_, hback⟩
              rw [hfront, ← hc, hafter]
              simp [textOpening, Text.of]
    · have hclosed := RouteLink.key_free (Bool.not_eq_true _ ▸ htext)
      have hrun : '|' ∉ ("link:" : Text) ++ segment.link.key := by
        simp [Text.of, hclosed.1]
      rw [← append_assoc] at hrest
      obtain ⟨after, hafter, htail⟩ := Delimiters.after_run hrun hrest
      obtain ⟨remaining, hremaining, hpath⟩ := pathTail_split htail
      refine .inl ⟨remaining, ?_, hpath⟩
      rw [hfront, ← hc, hafter, hremaining, CipRouteSegment.key]
      simp [Text.of]

theorem pathKey_split {front back : Text} (h : pathKey segments = front ++ '|' :: '|' :: back) :
    ∃ before segment after opened closed nonempty, segments = before ++ segment :: after ∧
      segment.link = .text (opened ++ '|' :: '|' :: closed) nonempty ∧
      front = pathFront before ++ textOpening segment.port ++ opened ∧
      back = closed ++ pathTail after := by
  induction segments generalizing front with
  | nil => simp [pathKey, joinText] at h
  | cons segment rest ih =>
    rw [pathKey_cons] at h
    rcases segment_split h with
      ⟨remaining, hfront, hpath⟩ | ⟨opened, closed, nonempty, hlink, hfront, hback⟩
    · obtain ⟨before, inside, after, opened, closed, nonempty, hrest, hlink, hremaining, hback⟩ :=
        ih hpath
      refine ⟨segment :: before, inside, after, opened, closed, nonempty, ?_, hlink, ?_, hback⟩
      · rw [hrest, cons_append]
      · rw [hfront, hremaining]
        simp [pathFront]
    · have hnone : front = pathFront [] ++ textOpening segment.port ++ opened := by
        simpa [pathFront] using hfront
      exact ⟨[], segment, rest, opened, closed, nonempty, rfl, hlink, hnone, hback⟩

/-- Two segments that open one path: they agree, or both links are texts that end at
different places. -/
theorem segment_unique {first second : CipRouteSegment} {rest others : List CipRouteSegment}
    (h : first.key ++ pathTail rest = second.key ++ pathTail others) :
    (first = second ∧ pathTail rest = pathTail others) ∨
    ∃ text other nonempty nonempty', first.link = .text text nonempty ∧
      second.link = .text other nonempty' ∧ first.port = second.port ∧
      text ++ pathTail rest = other ++ pathTail others := by
  have hkey : ∀ (segment : CipRouteSegment) (tail : Text), segment.key ++ tail =
      ("port:" : Text) ++ (decimal segment.port ++
        '|' :: (("link:" : Text) ++ (segment.link.key ++ tail))) := by
    intro segment tail
    simp [CipRouteSegment.key, Text.of]
  rw [hkey, hkey, append_cancel_left_eq] at h
  obtain ⟨hport, hlink⟩ := @Delimiters.run_unique _ (fun c => c.isDigit = true) _ _ _ _
    (fun c hc => Json.decimal_isDigit hc) (fun c hc => Json.decimal_isDigit hc)
    (by simp) (by simp) h
  have hport := decimal_injective hport
  rw [List.cons.injEq, append_cancel_left_eq] at hlink
  have hlink := hlink.2
  have hslash : ∀ segments : List CipRouteSegment, ∀ c ∈ (pathTail segments).head?, c = '/' := by
    intro segments c hc
    cases segments with
    | nil => simp [pathTail] at hc
    | cons segment segments =>
      simp only [pathTail, List.head?_cons, Option.mem_some_iff] at hc
      exact hc.symm
  by_cases htexts : first.link.isText = true ∧ second.link.isText = true
  · refine .inr ?_
    cases hfirst : first.link with
    | integer value => simp [hfirst, RouteLink.isText] at htexts
    | bytes value nonempty => simp [hfirst, RouteLink.isText] at htexts
    | text value nonempty =>
      cases hsecond : second.link with
      | integer value => simp [hsecond, RouteLink.isText] at htexts
      | bytes value nonempty => simp [hsecond, RouteLink.isText] at htexts
      | text other nonempty' =>
        rw [hfirst, hsecond] at hlink
        refine ⟨value, other, nonempty, nonempty', rfl, rfl, hport, ?_⟩
        simpa [RouteLink.key] using hlink
  · refine .inl ?_
    have hboth : first.link.isText = false ∧ second.link.isText = false := by
      cases hfirst : first.link <;> cases hsecond : second.link <;>
        simp_all [RouteLink.isText, RouteLink.key, Text.of]
    obtain ⟨hkeys, htails⟩ := @Delimiters.run_unique _ (fun c => c ≠ '/') _ _ _ _
      (fun c hc heq => (RouteLink.key_free hboth.1).2 (heq ▸ hc))
      (fun c hc heq => (RouteLink.key_free hboth.2).2 (heq ▸ hc))
      (fun c hc hne => hne (hslash rest c hc)) (fun c hc hne => hne (hslash others c hc)) hlink
    refine ⟨?_, htails⟩
    have hsame : first.link = second.link := RouteLink.key_injective hboth.1 hboth.2 hkeys
    cases first
    cases second
    simp_all

/-! ## Which keys name one route -/

/-- A key that only one route has: every link before the last one says how long it is, and
neither the last link nor the address goes on as the opening of another path would. -/
structure Unambiguous (db : CharacterDatabase) (route : CipRouteDeclaration db) : Prop where
  inner : ∀ segment ∈ route.segments.dropLast, segment.link.isText = false
  last : ∀ segment ∈ route.segments.getLast?, ∀ text nonempty,
    segment.link = .text text nonempty → ∀ opened more, more ≠ [] →
      (opened ≠ [] → text ≠ opened ++ '/' :: pathKey more) ∧
      (text = opened ++ '|' :: '|' :: pathKey more →
        ∃ c ∈ opened.getLast?, db.isSpace c = true)
  gateway : ∀ address before port opened, address ≠ [] → Trimmed db address →
    0 < port → port ≤ 0xFFFF → route.gateway.address ≠
      address ++ '|' :: '|' :: (pathFront before ++ textOpening port ++ opened)

theorem dropLast_split {before after : List CipRouteSegment} {segment : CipRouteSegment}
    (h : segments = before ++ segment :: after) :
    (after = [] ∧ segments.getLast? = some segment) ∨
      (after ≠ [] ∧ segment ∈ segments.dropLast) := by
  subst h
  cases after with
  | nil => exact .inl ⟨rfl, by simp⟩
  | cons next after =>
    refine .inr ⟨by simp, ?_⟩
    rw [dropLast_append_of_ne_nil (by simp)]
    simp

theorem pathKey_head (h : segments ≠ []) :
    (pathKey segments).head? = some 'p' := by
  cases segments with
  | nil => exact absurd rfl h
  | cons segment rest =>
    rw [pathKey_cons]
    simp [CipRouteSegment.key, Text.of]

theorem pathTail_injective {first second : List CipRouteSegment}
    (h : pathTail first = pathTail second) : pathKey first = pathKey second := by
  cases first <;> cases second <;> simp_all [pathTail]

/-- Two paths with one key agree, unless a text link of the one has more to follow or holds
the opening of a path. -/
theorem pathKey_unique {others : List CipRouteSegment} (h : pathKey others = pathKey segments) :
    others = segments ∨
    ∃ before segment after text nonempty, segments = before ++ segment :: after ∧
      segment.link = .text text nonempty ∧
      (after ≠ [] ∨ ∃ opened more, opened ≠ [] ∧ more ≠ [] ∧
        text = opened ++ '/' :: pathKey more) := by
  induction segments generalizing others with
  | nil =>
    left
    by_contra hne
    have hhead := pathKey_head hne
    rw [h] at hhead
    simp [pathKey, joinText] at hhead
  | cons segment rest ih =>
    cases others with
    | nil =>
      have hhead := pathKey_head (cons_ne_nil segment rest)
      rw [← h] at hhead
      simp [pathKey, joinText] at hhead
    | cons other others =>
      have hextend : other = segment → pathTail others = pathTail rest →
          other :: others = segment :: rest ∨
          ∃ before inner after text nonempty,
            segment :: rest = before ++ inner :: after ∧
            inner.link = .text text nonempty ∧
            (after ≠ [] ∨ ∃ opened more, opened ≠ [] ∧ more ≠ [] ∧
              text = opened ++ '/' :: pathKey more) := by
        intro hsame htail
        rcases ih (pathTail_injective htail) with
          heq | ⟨before, inner, after, text, nonempty, hrest, hlink, hreason⟩
        · exact .inl (by rw [hsame, heq])
        · exact .inr ⟨segment :: before, inner, after, text, nonempty,
            by rw [hrest, cons_append], hlink, hreason⟩
      rw [pathKey_cons, pathKey_cons] at h
      rcases segment_unique h with
        ⟨hsame, htail⟩ | ⟨value, text, nonempty', nonempty, hother, hlink, hport, htexts⟩
      · exact hextend hsame htail
      · have hequal : value = text → other = segment := by
          intro hvalue
          cases other
          cases segment
          simp_all
        rcases append_eq_append_iff.mp htexts with
          ⟨cut, hcut, htail⟩ | ⟨cut, hcut, htail⟩
        · cases cut with
          | nil =>
            rw [append_nil] at hcut
            exact hextend (hequal hcut.symm) htail
          | cons c cut =>
            refine .inr ⟨[], segment, rest, text, nonempty, rfl, hlink, ?_⟩
            by_cases hrest : rest = []
            · have hmore : others ≠ [] := by
                intro hnil
                simp [hnil, pathTail] at htail
              rw [pathTail_of_ne_nil hmore, hrest] at htail
              simp only [pathTail, append_nil] at htail
              exact .inr ⟨value, others, nonempty', hmore, by rw [hcut, ← htail]⟩
            · exact .inl hrest
        · cases cut with
          | nil =>
            rw [append_nil] at hcut
            exact hextend (hequal hcut) htail.symm
          | cons c cut =>
            refine .inr ⟨[], segment, rest, text, nonempty, rfl, hlink, .inl ?_⟩
            intro hnil
            simp [hnil, pathTail] at htail

variable {db : CharacterDatabase}

theorem dropWhile_eq_iff {drop : Char → Bool} {text : Text} :
    text.dropWhile drop = text ↔ ∀ c ∈ text.head?, drop c = false := by
  cases text with
  | nil => simp
  | cons c text =>
    by_cases hc : drop c = true
    · have hshorter : ((c :: text).dropWhile drop).length < (c :: text).length := by
        rw [dropWhile_cons_of_pos hc, length_cons]
        have hle := (dropWhile_suffix (l := text) drop).length_le
        omega
      have hne : (c :: text).dropWhile drop ≠ c :: text := by
        intro heq
        rw [heq] at hshorter
        omega
      exact ⟨fun heq => absurd heq hne, fun hall => absurd (hall c rfl) (by simp [hc])⟩
    · simp [hc]

theorem trimmed_iff {text : Text} : Trimmed db text ↔
    (∀ c ∈ text.head?, db.isSpace c = false) ∧ ∀ c ∈ text.getLast?, db.isSpace c = false := by
  have hlast : text.reverse.dropWhile db.isSpace = text.reverse ↔
      ∀ c ∈ text.getLast?, db.isSpace c = false := by
    rw [dropWhile_eq_iff, List.head?_reverse]
  unfold Trimmed CharacterDatabase.strip
  rw [← hlast, ← dropWhile_eq_iff]
  constructor
  · intro hstrip
    have hinner : (text.dropWhile db.isSpace).length ≤ text.length :=
      (dropWhile_suffix db.isSpace).length_le
    have houter : ((text.dropWhile db.isSpace).reverse.dropWhile db.isSpace).length ≤
        (text.dropWhile db.isSpace).reverse.length :=
      (dropWhile_suffix db.isSpace).length_le
    have hlength := congrArg List.length hstrip
    rw [length_reverse] at hlength houter
    have hfront : text.dropWhile db.isSpace = text :=
      (dropWhile_suffix db.isSpace).eq_of_length (by omega)
    rw [hfront] at hstrip
    refine ⟨hfront, ?_⟩
    rw [← reverse_inj, hstrip, reverse_reverse]
  · intro hboth
    rw [hboth.1, hboth.2, reverse_reverse]

theorem trimmed_longer {address middle opened : Text} {port : Nat} (hnonempty : address ≠ [])
    (haddress : Trimmed db address) (hopened : ∀ c ∈ opened.getLast?, db.isSpace c = false) :
    Trimmed db (address ++ '|' :: '|' :: (middle ++ textOpening port ++ opened)) := by
  rw [trimmed_iff] at haddress ⊢
  constructor
  · rw [List.head?_append_of_ne_nil _ hnonempty]
    exact haddress.1
  · intro c hc
    by_cases hnil : opened = []
    · have hopening : textOpening port =
          ("port:" : Text) ++ decimal port ++ ("|link:text" : Text) ++ [':'] := by
        simp [textOpening, Text.of]
      have hcolon : c = ':' := by
        rw [hnil, hopening, append_nil] at hc
        simp only [← append_assoc, ← cons_append, List.getLast?_append,
          List.getLast?_singleton, Option.some_or, Option.mem_some_iff] at hc
        exact hc.symm
      rw [hcolon, db.space_ascii _ (by decide)]
      decide
    · refine hopened c ?_
      simpa [List.getLast?_append, List.getLast?_cons, List.getLast?_eq_some_getLast hnil]
        using hc

def declared (address : Text) (segments : List CipRouteSegment) (hnonempty : address ≠ [])
    (htrimmed : Trimmed db address) (hsegments : segments ≠ []) : CipRouteDeclaration db where
  gateway := { address }
  segments
  maximumDepth := segments.length
  address_nonempty := hnonempty
  address_trimmed := htrimmed
  gateway_route := rfl
  segments_nonempty := hsegments
  within_depth := le_refl _
  label_trimmed := by simp

theorem CipRouteDeclaration.key_eq (route : CipRouteDeclaration db) :
    route.key = route.gateway.address ++ '|' :: '|' :: pathKey route.segments := by
  rw [CipRouteDeclaration.key, DiscoveryTarget.key, route.gateway_route]
  simp [joinText]

theorem key_same {route : CipRouteDeclaration db} (h : Unambiguous db route)
    {other : CipRouteDeclaration db} (hkey : other.key = route.key) : SameRoute other route := by
  have hroutes : other.gateway.route = route.gateway.route := by
    rw [other.gateway_route, route.gateway_route]
  have hhead := pathKey_head route.segments_nonempty
  have hothers := pathKey_head other.segments_nonempty
  rw [other.key_eq, route.key_eq] at hkey
  rcases Delimiters.pair_split (by simp [hothers]) (by simp [hhead]) hkey with
    ⟨haddress, hpath⟩ | ⟨between, haddress, hpath⟩ | ⟨between, haddress, hpath⟩
  · refine ⟨haddress, hroutes, ?_⟩
    rcases pathKey_unique hpath with
      heq | ⟨before, segment, after, text, nonempty, hsplit, hlink, hreason⟩
    · exact heq
    · rcases dropLast_split hsplit with ⟨hafter, hlast⟩ | ⟨hafter, hinner⟩
      · rcases hreason with hne | ⟨opened, more, hopened, hmore, htext⟩
        · exact absurd hafter hne
        · exact absurd htext ((h.last segment hlast text nonempty hlink opened more hmore).1 hopened)
      · have hclosed := h.inner segment hinner
        rw [hlink] at hclosed
        cases hclosed
  · obtain ⟨before, segment, after, opened, closed, nonempty, hsplit, hlink, hbetween, htail⟩ :=
      pathKey_split hpath
    rcases dropLast_split hsplit with ⟨hafter, hlast⟩ | ⟨hafter, hinner⟩
    · rw [hafter, pathTail, append_nil] at htail
      obtain ⟨c, hc, hspace⟩ := (h.last segment hlast _ _ hlink opened other.segments
        other.segments_nonempty).2 (by rw [htail])
      have htrimmed := (trimmed_iff.mp other.address_trimmed).2 c (by
        rw [haddress, hbetween]
        simp only [List.getLast?_append, List.getLast?_cons, Option.mem_def] at hc ⊢
        simp [hc])
      rw [hspace] at htrimmed
      cases htrimmed
    · have hclosed := h.inner segment hinner
      rw [hlink] at hclosed
      cases hclosed
  · obtain ⟨before, segment, after, opened, closed, nonempty, hsplit, hlink, hbetween, htail⟩ :=
      pathKey_split hpath
    rw [hbetween] at haddress
    exact absurd haddress (h.gateway other.gateway.address before segment.port opened
      other.address_nonempty other.address_trimmed segment.port_pos segment.port_le)

theorem same_key {first second : CipRouteDeclaration db} (h : SameRoute first second) :
    first.key = second.key := by
  obtain ⟨haddress, -, hsegments⟩ := h
  rw [first.key_eq, second.key_eq, haddress, hsegments]

/-- A route with one key only names its links so that each can be told from what follows. -/
theorem key_unambiguous {route : CipRouteDeclaration db}
    (h : ∀ other : CipRouteDeclaration db, other.key = route.key → SameRoute other route) :
    Unambiguous db route where
  inner := by
    intro segment hsegment
    by_contra htext
    obtain ⟨before, middle, hsplit⟩ := append_of_mem hsegment
    obtain ⟨after, hafter, hsegments⟩ : ∃ after : List CipRouteSegment, after ≠ [] ∧
        route.segments = before ++ segment :: after := by
      refine ⟨middle ++ [route.segments.getLast route.segments_nonempty], by simp, ?_⟩
      rw [← cons_append, ← append_assoc, ← hsplit, dropLast_append_getLast]
    cases hlink : segment.link with
    | integer value => simp [hlink, RouteLink.isText] at htext
    | bytes value nonempty => simp [hlink, RouteLink.isText] at htext
    | text value nonempty =>
      let longer : CipRouteSegment := ⟨segment.port, .text (value ++ pathTail after)
        (by simp [nonempty]), segment.port_pos, segment.port_le⟩
      have hsame := h (declared route.gateway.address (before ++ [longer]) route.address_nonempty
        route.address_trimmed (by simp)) (by
          rw [CipRouteDeclaration.key_eq, CipRouteDeclaration.key_eq, hsegments]
          simp [declared, pathKey_append, pathKey_cons, longer, CipRouteSegment.key, hlink,
            RouteLink.key, pathTail])
      have hlength := congrArg List.length (hsame.2.2.trans hsegments)
      simp [declared, hafter] at hlength
  last := by
    intro segment hlast text nonempty hlink opened more hmore
    have hsegments : route.segments = route.segments.dropLast ++ [segment] :=
      (dropLast_append_getLast? segment hlast).symm
    generalize route.segments.dropLast = before at hsegments
    constructor
    · intro hopened htext
      let shorter : CipRouteSegment :=
        ⟨segment.port, .text opened hopened, segment.port_pos, segment.port_le⟩
      have hsame := h (declared route.gateway.address (before ++ shorter :: more)
        route.address_nonempty route.address_trimmed (by simp)) (by
          rw [CipRouteDeclaration.key_eq, CipRouteDeclaration.key_eq, hsegments]
          simp [declared, pathKey_append, pathKey_cons, shorter, CipRouteSegment.key, hlink,
            RouteLink.key, pathTail, htext])
      have hlength := congrArg List.length (hsame.2.2.trans hsegments)
      simp [declared, hmore] at hlength
    · intro htext
      by_contra hspace
      have htrimmed : Trimmed db (route.gateway.address ++
          '|' :: '|' :: (pathFront before ++ textOpening segment.port ++ opened)) :=
        trimmed_longer route.address_nonempty route.address_trimmed (by
          intro c hc
          by_contra hcspace
          rw [Bool.not_eq_false] at hcspace
          exact hspace ⟨c, hc, hcspace⟩)
      have hsame := h (declared _ more (by simp) htrimmed hmore) (by
        rw [CipRouteDeclaration.key_eq, CipRouteDeclaration.key_eq, hsegments]
        simp [declared, pathKey_append, pathKey_cons, CipRouteSegment.key, hlink,
          RouteLink.key, pathTail, htext, textOpening, Text.of])
      have hlength := congrArg List.length hsame.1
      simp [declared] at hlength
  gateway := by
    intro address before port opened hnonempty htrimmed hpos hle haddress
    let segment : CipRouteSegment := ⟨port, .text (opened ++ '|' :: '|' :: pathKey route.segments)
      (by simp), hpos, hle⟩
    have hsame := h (declared address (before ++ [segment]) hnonempty htrimmed (by simp)) (by
      rw [CipRouteDeclaration.key_eq, CipRouteDeclaration.key_eq, haddress]
      simp [declared, pathKey_append, pathKey_cons, pathTail, segment, CipRouteSegment.key,
        RouteLink.key, textOpening, Text.of])
    have hlength := congrArg List.length (hsame.1.trans haddress)
    simp [declared] at hlength

/-- A key names one route exactly where it is unambiguous, and a permit keeps to the
confirmed routes exactly where all their keys are. -/
theorem permitted_routes :
    (∀ route : CipRouteDeclaration db,
      (∀ other : CipRouteDeclaration db, other.key = route.key → SameRoute other route) ↔
        Unambiguous db route) ∧
    ∀ confirmation : Confirmation db,
      (∀ (reference : Text) (requested : List (CipRouteDeclaration db)),
        validateRoutedExecution (some confirmation.permit) reference
            (requested.map CipRouteDeclaration.key) = .ok () →
          ∀ route ∈ requested, ∃ confirmed ∈ confirmation.confirmed, SameRoute route confirmed) ↔
        ∀ route ∈ confirmation.confirmed, Unambiguous db route := by
  have hkeys : ∀ route : CipRouteDeclaration db,
      (∀ other : CipRouteDeclaration db, other.key = route.key → SameRoute other route) ↔
        Unambiguous db route :=
    fun route => ⟨key_unambiguous, fun h other => key_same h⟩
  refine ⟨hkeys, ?_⟩
  intro confirmation
  constructor
  · intro haccepted route hroute
    rw [← hkeys route]
    intro other hother
    have hallowed : other.key ∈ confirmation.permit.allowedRouteKeys := by
      rw [confirmation.keys, hother]
      exact mem_map_of_mem hroute
    have hvalid : validateRoutedExecution (some confirmation.permit)
        confirmation.permit.authorizationReference [other.key] = .ok () :=
      validated_keys.mpr ⟨rfl, by simpa using hallowed⟩
    obtain ⟨found, hfound, hsame⟩ := haccepted _ [other] hvalid other (by simp)
    have hdistinct : (confirmation.confirmed.map CipRouteDeclaration.key).Nodup :=
      confirmation.keys ▸ confirmation.permit.keys_nodup
    have heq : found = route :=
      inj_on_of_nodup_map hdistinct hfound hroute ((same_key hsame).symm.trans hother)
    rw [← heq]
    exact hsame
  · intro hall reference requested hvalid route hroute
    have hallowed := (validated_keys.mp hvalid).2 route.key (mem_map_of_mem hroute)
    rw [confirmation.keys] at hallowed
    obtain ⟨found, hfound, hkey⟩ := mem_map.mp hallowed
    exact ⟨found, hfound, key_same (hall found hfound) hkey.symm⟩

def twoHops : CipRouteDeclaration Ascii.database where
  gateway := { address := "10.0.0.1" }
  segments := [⟨1, .text "a" (by decide), by decide, by decide⟩,
    ⟨2, .integer 3, by decide, by decide⟩]
  maximumDepth := 2
  address_nonempty := by decide
  address_trimmed := by decide +kernel
  gateway_route := rfl
  segments_nonempty := by simp
  within_depth := by simp
  label_trimmed := by simp

/-- One hop, to a link whose name goes on where the two hops do. -/
def oneHop : CipRouteDeclaration Ascii.database where
  gateway := { address := "10.0.0.1" }
  segments := [⟨1, .text "a/port:2|link:integer:3" (by decide), by decide, by decide⟩]
  maximumDepth := 1
  address_nonempty := by decide
  address_trimmed := by decide +kernel
  gateway_route := rfl
  segments_nonempty := by simp
  within_depth := by simp
  label_trimmed := by simp

def slotZero : CipRouteDeclaration Ascii.database where
  gateway := { address := "192.168.1.10" }
  segments := [⟨1, .integer 0, by decide, by decide⟩]
  maximumDepth := 1
  address_nonempty := by decide
  address_trimmed := by decide
  gateway_route := rfl
  segments_nonempty := by decide
  within_depth := by decide
  label_trimmed _ h := by cases h

def twoHopsPermit : RoutedExecutionPermit where
  authorizationReference := "WORK-1"
  allowedRouteKeys := [twoHops.key]
  keys_nonempty := by simp
  keys_nodup := by simp

theorem other_route_permitted : oneHop.key = twoHops.key ∧ ¬ SameRoute oneHop twoHops ∧
    validateRoutedExecution (some twoHopsPermit) "WORK-1" [oneHop.key] = .ok () := by
  have hkey : oneHop.key = twoHops.key := by decide +kernel
  refine ⟨hkey, ?_, ?_⟩
  · intro hsame
    have hlength := congrArg List.length hsame.2.2
    cases hlength
  · exact validated_keys.mpr ⟨rfl, by simp [twoHopsPermit, hkey]⟩

end TwinForge.Discovery
