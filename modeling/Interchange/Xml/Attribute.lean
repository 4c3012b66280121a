import Interchange.Xml.Event

/-!
The attributes of a tag, read one after the other. Positions count octets from the start of the tag's
content. What follows the first flaw is not read, and what precedes it is kept.
-/

namespace Interchange.Xml

open Text.Utf8 (Octets)

/-- An attribute as it was written, without its quotes. -/
structure RawAttribute where
  key : Octets
  value : Octets
  deriving DecidableEq, Repr

/-- Why the text behind a tag's name is no list of attributes. -/
inductive AttributeFlaw where
  | missingEquals (position : Nat)
  | missingValue (position : Nat)
  | unquotedValue (position : Nat)
  | missingQuote (position : Nat) (quote : UInt8)
  | duplicate (position previous : Nat)
  deriving DecidableEq, Repr

def AttributeFlaw.message : AttributeFlaw → String
  | .missingEquals p =>
    "position " ++ toString p ++ ": attribute key must be directly followed by `=` or space"
  | .missingValue p => "position " ++ toString p ++ ": `=` must be followed by an attribute value"
  | .unquotedValue p =>
    "position " ++ toString p ++ ": attribute value must be enclosed in `\"` or `'`"
  | .missingQuote p quote =>
    "position " ++ toString p ++ ": missing closing quote `" ++
      String.singleton (Char.ofNat quote.toNat) ++ "` in attribute value"
  | .duplicate p previous =>
    "position " ++ toString p ++ ": duplicated attribute, previous declaration at position " ++
      toString previous

/-- The attributes read, and the flaw that ended the reading. -/
structure AttributeReading where
  attributes : List RawAttribute
  flaw : Option AttributeFlaw
  deriving DecidableEq, Repr

/-- Cuts behind the equals sign that follows a key. -/
def readEquals (total : Nat) (s : Octets) : Except AttributeFlaw Octets :=
  match s.dropWhile isSpace with
  | [] => .error (.missingEquals total)
  | b :: rest =>
    if b = equalsSign then .ok rest else .error (.missingEquals (total - (rest.length + 1)))

/-- Reads a quoted value and what follows its closing quote. -/
def readValue (total : Nat) (s : Octets) : Except AttributeFlaw (Octets × Octets) :=
  match s.dropWhile isSpace with
  | [] => .error (.missingValue total)
  | q :: rest =>
    if q = quoteMark || q = apostrophe then
      match rest.dropWhile (· != q) with
      | [] => .error (.missingQuote total q)
      | _ :: after => .ok (rest.takeWhile (· != q), after)
    else .error (.unquotedValue (total - (rest.length + 1)))

/-- An octet that ends a key. -/
def endsKey (b : UInt8) : Bool := b == equalsSign || isSpace b

/-- Reads the attribute that starts with the octet `b`, and what follows it. A key takes its first
octet whatever it is. `seen` holds the keys in front of it with their positions. -/
def readAttribute (total : Nat) (seen : List (Octets × Nat)) (b : UInt8) (rest : Octets) :
    Except AttributeFlaw (RawAttribute × Octets) := do
  let key := b :: rest.takeWhile (!endsKey ·)
  let behind ← readEquals total (rest.dropWhile (!endsKey ·))
  match seen.find? (·.1 == key) with
  | some (_, previous) => throw (.duplicate (total - (rest.length + 1)) previous)
  | none =>
    let (value, after) ← readValue total behind
    return (⟨key, value⟩, after)

theorem length_dropWhile_le (p : UInt8 → Bool) (s : Octets) : (s.dropWhile p).length ≤ s.length :=
  (List.dropWhile_sublist p (l := s)).length_le

theorem length_readEquals {total : Nat} {s after : Octets} (h : readEquals total s = .ok after) :
    after.length < s.length := by
  unfold readEquals at h
  have hle := length_dropWhile_le isSpace s
  split at h
  · simp at h
  · rename_i hd
    rw [hd, List.length_cons] at hle
    split at h
    · simp only [Except.ok.injEq] at h
      rw [← h]
      omega
    · simp at h

theorem length_readValue {total : Nat} {s value after : Octets}
    (h : readValue total s = .ok (value, after)) : after.length < s.length := by
  unfold readValue at h
  have hle := length_dropWhile_le isSpace s
  split at h
  · simp at h
  · rename_i q rest hd
    rw [hd, List.length_cons] at hle
    have hrest := length_dropWhile_le (· != q) rest
    split at h
    · split at h
      · simp at h
      · rename_i hr
        simp only [Except.ok.injEq, Prod.mk.injEq] at h
        rw [hr, List.length_cons, h.2] at hrest
        omega
    · simp at h

theorem length_readAttribute {total : Nat} {seen : List (Octets × Nat)} {b : UInt8}
    {rest after : Octets} {a : RawAttribute}
    (h : readAttribute total seen b rest = .ok (a, after)) : after.length < rest.length := by
  simp only [readAttribute, bind, Except.bind] at h
  split at h
  · simp at h
  · rename_i hb
    split at h
    · simp [throw, throwThe, MonadExceptOf.throw] at h
    · split at h
      · simp at h
      · rename_i r hv
        simp only [pure, Except.pure, Except.ok.injEq, Prod.mk.injEq] at h
        obtain ⟨v, s⟩ := r
        have h₁ := length_readEquals hb
        have h₂ := length_readValue hv
        have h₃ := length_dropWhile_le (!endsKey ·) rest
        have h₄ : s = after := h.2
        subst h₄
        omega

/-- Reads the attributes in what is left of a tag's content of `total` octets. -/
def readAttributes (total : Nat) (seen : List (Octets × Nat)) (s : Octets) : AttributeReading :=
  match hs : s.dropWhile isSpace with
  | [] => ⟨[], none⟩
  | b :: rest =>
    match h : readAttribute total seen b rest with
    | .error flaw => ⟨[], some flaw⟩
    | .ok (item, after) =>
      have : after.length < s.length := by
        have := length_readAttribute h
        have hle := length_dropWhile_le isSpace s
        rw [hs, List.length_cons] at hle
        omega
      let position := total - (rest.length + 1)
      let reading := readAttributes total (seen ++ [(item.key, position)]) after
      { reading with attributes := item :: reading.attributes }
termination_by s.length

/-- The attributes of a tag, in order. -/
def Tag.attributes (t : Tag) : AttributeReading :=
  readAttributes t.content.length [] (t.content.dropWhile (!isSpace ·))

end Interchange.Xml
