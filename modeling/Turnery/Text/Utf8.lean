/-!
# UTF-8

Bytes are cut into pieces: each piece is a character, or as many bytes as still could have begun
one. A text is well formed if all pieces are characters; a tolerant reader puts the replacement
character for the others. `decode?_encode` says that what is written reads back.
-/

namespace Turnery.Text.Utf8

/-- What the first byte of a character says: the bits it gives, how many bytes follow, and the range
of the first of those. -/
structure Lead where
  bits : Nat
  following : Nat
  low : Nat
  high : Nat
  deriving DecidableEq, Repr

/-- What a byte says if it begins a character. -/
def lead? (b : Nat) : Option Lead :=
  if b < 0x80 then some ⟨b, 0, 0x80, 0xBF⟩
  else if b < 0xC2 then none
  else if b < 0xE0 then some ⟨b - 0xC0, 1, 0x80, 0xBF⟩
  else if b < 0xF0 then
    some ⟨b - 0xE0, 2, if b = 0xE0 then 0xA0 else 0x80, if b = 0xED then 0x9F else 0xBF⟩
  else if b < 0xF5 then
    some ⟨b - 0xF0, 3, if b = 0xF0 then 0x90 else 0x80, if b = 0xF4 then 0x8F else 0xBF⟩
  else none

/-- Takes the following bytes of a character; stops in front of the first that does not fit. -/
def follow (bits low high : Nat) : Nat → List UInt8 → Option Nat × List UInt8
  | 0, rest => (some bits, rest)
  | _ + 1, [] => (none, [])
  | more + 1, b :: rest =>
    if low ≤ b.toNat && b.toNat ≤ high then
      follow (bits * 64 + (b.toNat - 0x80)) 0x80 0xBF more rest
    else (none, b :: rest)

theorem follow_length (bits low high more : Nat) (bytes : List UInt8) :
    (follow bits low high more bytes).2.length ≤ bytes.length := by
  fun_induction follow bits low high more bytes with
  | case1 => simp
  | case2 => simp
  | case3 bits low high more b rest _ ih => simp only [List.length_cons]; omega
  | case4 => simp

/-- The piece that a first byte begins, and the rest. -/
def piece (b : UInt8) (rest : List UInt8) : Option Char × List UInt8 :=
  match lead? b.toNat with
  | none => (none, rest)
  | some l =>
    let taken := follow l.bits l.low l.high l.following rest
    (taken.1.map Char.ofNat, taken.2)

theorem piece_length (b : UInt8) (rest : List UInt8) : (piece b rest).2.length ≤ rest.length := by
  unfold piece
  split
  · simp
  · exact follow_length ..

def pieces : List UInt8 → List (Option Char)
  | [] => []
  | b :: rest => (piece b rest).1 :: pieces (piece b rest).2
termination_by bytes => bytes.length
decreasing_by
  have := piece_length b rest
  simp only [List.length_cons]
  omega

/-- The text of well-formed bytes. -/
def decode? (bytes : List UInt8) : Option (List Char) :=
  (pieces bytes).mapM id

/-- The text of any bytes. -/
def decodeTolerant (bytes : List UInt8) : List Char :=
  (pieces bytes).map fun c => c.getD '\uFFFD'

def encode (text : List Char) : List UInt8 :=
  text.flatMap String.utf8EncodeChar

theorem follow_cons {bits low high more : Nat} {b : UInt8} (rest : List UInt8)
    (h : low ≤ b.toNat ∧ b.toNat ≤ high) :
    follow bits low high (more + 1) (b :: rest) =
      follow (bits * 64 + (b.toNat - 0x80)) 0x80 0xBF more rest := by
  simp [follow, h.1, h.2]

theorem piece_of_lead {b : UInt8} {l : Lead} (h : lead? b.toNat = some l) (rest : List UInt8) :
    piece b rest = ((follow l.bits l.low l.high l.following rest).1.map Char.ofNat,
      (follow l.bits l.low l.high l.following rest).2) := by
  simp [piece, h]

theorem toNat_ofNat_of_lt {n : Nat} (h : n < 256) : (n.toUInt8).toNat = n := by
  simp; omega

/-- The bytes of a character are one piece. -/
theorem pieces_utf8EncodeChar (c : Char) (rest : List UInt8) :
    pieces (String.utf8EncodeChar c ++ rest) = some c :: pieces rest := by
  have hc : Char.ofNat c.toNat = c := Char.ofNat_toNat c
  have hv := c.valid
  have hv : c.toNat < 0xD800 ∨ 0xDFFF < c.toNat ∧ c.toNat < 0x110000 := hv
  unfold String.utf8EncodeChar
  have hn : c.val.toNat = c.toNat := rfl
  rw [hn]
  generalize c.toNat = n at *
  simp only
  split
  · rename_i h
    rw [List.cons_append, List.nil_append, pieces, piece_of_lead (l := ⟨n, 0, 0x80, 0xBF⟩)]
    · simp [follow, hc]
    · rw [toNat_ofNat_of_lt (by omega)]
      simp [lead?]; omega
  split
  · rename_i h h2
    rw [List.cons_append, List.cons_append, List.nil_append, pieces,
      piece_of_lead (l := ⟨n / 64, 1, 0x80, 0xBF⟩)]
    · rw [follow_cons, toNat_ofNat_of_lt (by omega)]
      · simp only [follow, Option.map_some]
        rw [show n / 64 * 64 + (n % 0x40 + 0x80 - 0x80) = n by omega, hc]
      · rw [toNat_ofNat_of_lt (by omega)]
        dsimp only
        omega
    · rw [toNat_ofNat_of_lt (by omega)]
      unfold lead?
      rw [if_neg (by omega), if_neg (by omega), if_pos (by omega)]
      simp; omega
  split
  · rename_i h h2 h3
    rw [List.cons_append, List.cons_append, List.cons_append, List.nil_append, pieces,
      piece_of_lead (l := ⟨n / 4096, 2, if n / 4096 = 0 then 0xA0 else 0x80,
        if n / 4096 = 0xD then 0x9F else 0xBF⟩)]
    · rw [follow_cons, follow_cons, toNat_ofNat_of_lt (by omega), toNat_ofNat_of_lt (by omega)]
      · simp only [follow, Option.map_some]
        rw [show (n / 4096 * 64 + (n / 64 % 0x40 + 0x80 - 0x80)) * 64 + (n % 0x40 + 0x80 - 0x80) =
          n by omega, hc]
      · rw [toNat_ofNat_of_lt (by omega)]
        omega
      · rw [toNat_ofNat_of_lt (by omega)]
        dsimp only
        constructor <;> split <;> omega
    · rw [toNat_ofNat_of_lt (by omega)]
      unfold lead?
      rw [if_neg (by omega), if_neg (by omega), if_neg (by omega), if_pos (by omega)]
      have e1 : n / 4096 % 16 = n / 4096 := by omega
      rw [e1]
      simp only [Option.some.injEq, Lead.mk.injEq]
      refine ⟨by omega, trivial, ?_, ?_⟩
      · by_cases h0 : n / 4096 = 0
        · rw [if_pos h0, if_pos (by omega)]
        · rw [if_neg h0, if_neg (by omega)]
      · by_cases h0 : n / 4096 = 0xD
        · rw [if_pos h0, if_pos (by omega)]
        · rw [if_neg h0, if_neg (by omega)]
  · rename_i h h2 h3
    rw [List.cons_append, List.cons_append, List.cons_append, List.cons_append,
      List.nil_append, pieces,
      piece_of_lead (l := ⟨n / 262144, 3, if n / 262144 = 0 then 0x90 else 0x80,
        if n / 262144 = 4 then 0x8F else 0xBF⟩)]
    · rw [follow_cons, follow_cons, follow_cons, toNat_ofNat_of_lt (by omega),
        toNat_ofNat_of_lt (by omega), toNat_ofNat_of_lt (by omega)]
      · simp only [follow, Option.map_some]
        rw [show ((n / 262144 * 64 + (n / 4096 % 0x40 + 0x80 - 0x80)) * 64 +
          (n / 64 % 0x40 + 0x80 - 0x80)) * 64 + (n % 0x40 + 0x80 - 0x80) = n by omega, hc]
      · rw [toNat_ofNat_of_lt (by omega)]
        omega
      · rw [toNat_ofNat_of_lt (by omega)]
        omega
      · rw [toNat_ofNat_of_lt (by omega)]
        dsimp only
        constructor <;> split <;> omega
    · rw [toNat_ofNat_of_lt (by omega)]
      unfold lead?
      rw [if_neg (by omega), if_neg (by omega), if_neg (by omega), if_neg (by omega),
        if_pos (by omega)]
      have e1 : n / 262144 % 8 = n / 262144 := by omega
      rw [e1]
      simp only [Option.some.injEq, Lead.mk.injEq]
      refine ⟨by omega, trivial, ?_, ?_⟩
      · by_cases h0 : n / 262144 = 0
        · rw [if_pos h0, if_pos (by omega)]
        · rw [if_neg h0, if_neg (by omega)]
      · by_cases h0 : n / 262144 = 4
        · rw [if_pos h0, if_pos (by omega)]
        · rw [if_neg h0, if_neg (by omega)]

theorem decode?_encode (text : List Char) : decode? (encode text) = some text := by
  induction text with
  | nil => simp [decode?, encode, pieces]
  | cons c rest ih =>
    simp only [decode?, encode, List.flatMap_cons] at ih ⊢
    rw [pieces_utf8EncodeChar, List.mapM_cons, ih]
    rfl
end Turnery.Text.Utf8
