import LineTemplate.Text.Utf8
import Mathlib.Data.List.Basic
import Mathlib.Tactic.Common

/-!
# Which bytes spell a text

The machine that reads bytes comes to a character exactly with the bytes that spell it. So bytes are
read as a text if and only if they are its encoding, and bytes that are the encoding of no text are
not read at all.
-/
namespace LineTemplate.Utf8

namespace Partial

/-- The start of a character of two bytes. -/
def two (b : Nat) : Partial := ⟨b - 0xC0, 0x80, 0xBF, 0⟩

/-- The start of a character of three bytes. Small characters and surrogates are not spelled so. -/
def three (b : Nat) : Partial :=
  ⟨b - 0xE0, if b = 0xE0 then 0xA0 else 0x80, if b = 0xED then 0x9F else 0xBF, 1⟩

/-- The start of a character of four bytes. Small characters and too large ones are not spelled
so. -/
def four (b : Nat) : Partial :=
  ⟨b - 0xF0, if b = 0xF0 then 0x90 else 0x80, if b = 0xF4 then 0x8F else 0xBF, 2⟩

/-- The bytes `tail` complete the character under way to `c`. -/
def Completes (p : Partial) : Bytes → Char → Prop
  | [], _ => False
  | b :: tail, c =>
    p.low ≤ b.toNat ∧ b.toNat ≤ p.high ∧
      match p.more with
      | 0 => tail = [] ∧ c = Char.ofNat (p.bits * 64 + (b.toNat - 0x80))
      | more + 1 => Completes ⟨p.bits * 64 + (b.toNat - 0x80), 0x80, 0xBF, more⟩ tail c

@[simp] theorem not_completes_nil (p : Partial) (c : Char) : ¬ p.Completes [] c := id

@[simp] theorem completes_last {bits low high : Nat} {b : UInt8} {tail : Bytes} {c : Char} :
    Completes ⟨bits, low, high, 0⟩ (b :: tail) c ↔
      low ≤ b.toNat ∧ b.toNat ≤ high ∧ tail = [] ∧
        c = Char.ofNat (bits * 64 + (b.toNat - 0x80)) := Iff.rfl

@[simp] theorem completes_more {bits low high more : Nat} {b : UInt8} {tail : Bytes} {c : Char} :
    Completes ⟨bits, low, high, more + 1⟩ (b :: tail) c ↔
      low ≤ b.toNat ∧ b.toNat ≤ high ∧
        Completes ⟨bits * 64 + (b.toNat - 0x80), 0x80, 0xBF, more⟩ tail c := Iff.rfl

end Partial

/-- First bytes, by the number of bytes that follow them. -/
theorem lead?_eq (b : Nat) :
    lead? b =
      if b < 0x80 then some (.inl (Char.ofNat b))
      else if 0xC2 ≤ b ∧ b ≤ 0xDF then some (.inr (.two b))
      else if 0xE0 ≤ b ∧ b ≤ 0xEF then some (.inr (.three b))
      else if 0xF0 ≤ b ∧ b ≤ 0xF4 then some (.inr (.four b))
      else none := by
  unfold lead? Partial.two Partial.three Partial.four
  split_ifs <;> first | omega | (subst b; rfl) | rfl

/-- The number of a character that is neither a surrogate nor too large. -/
lemma val_of_eq_ofNat {c : Char} {n : Nat} (hc : c = Char.ofNat n)
    (h : n < 0xD800 ∨ 0xDFFF < n ∧ n < 0x110000) : c.val.toNat = n := by
  have hvalid : n.isValidChar := h
  rw [hc, Char.ofNat, dif_pos hvalid]
  rfl

lemma ofNat_eq_of_eq_toNat {n : Nat} {b : UInt8} (h : n = b.toNat) : UInt8.ofNat n = b := by
  rw [h, UInt8.ofNat_toNat]

lemma encodeChar_of_completes_two {b : UInt8} (h : 0xC2 ≤ b.toNat ∧ b.toNat ≤ 0xDF) {tail : Bytes}
    {c : Char} (hc : (Partial.two b.toNat).Completes tail c) :
    String.utf8EncodeChar c = b :: tail := by
  rcases tail with _ | ⟨b₁, tail⟩
  · contradiction
  · obtain ⟨hlow, hhigh, rfl, hchar⟩ := Partial.completes_last.mp hc
    have hval := val_of_eq_ofNat hchar (by omega)
    simp only [String.utf8EncodeChar]
    rw [if_neg (by omega), if_pos (by omega), ofNat_eq_of_eq_toNat (b := b) (by omega),
      ofNat_eq_of_eq_toNat (b := b₁) (by omega)]

lemma encodeChar_of_completes_three {b : UInt8} (h : 0xE0 ≤ b.toNat ∧ b.toNat ≤ 0xEF)
    {tail : Bytes} {c : Char} (hc : (Partial.three b.toNat).Completes tail c) :
    String.utf8EncodeChar c = b :: tail := by
  rcases tail with _ | ⟨b₁, _ | ⟨b₂, tail⟩⟩
  · contradiction
  · exact absurd (Partial.completes_more.mp hc).2.2 (Partial.not_completes_nil _ c)
  · obtain ⟨hlow, hhigh, hc⟩ := Partial.completes_more.mp hc
    have hsmall : 0x80 ≤ b₁.toNat ∧ (b.toNat = 0xE0 → 0xA0 ≤ b₁.toNat) := by
      split_ifs at hlow <;> omega
    have hsurrogate : b₁.toNat ≤ 0xBF ∧ (b.toNat = 0xED → b₁.toNat ≤ 0x9F) := by
      split_ifs at hhigh <;> omega
    obtain ⟨hlow', hhigh', rfl, hchar⟩ := Partial.completes_last.mp hc
    have hval := val_of_eq_ofNat hchar (by omega)
    simp only [String.utf8EncodeChar]
    rw [if_neg (by omega), if_neg (by omega), if_pos (by omega),
      ofNat_eq_of_eq_toNat (b := b) (by omega), ofNat_eq_of_eq_toNat (b := b₁) (by omega),
      ofNat_eq_of_eq_toNat (b := b₂) (by omega)]

lemma encodeChar_of_completes_four {b : UInt8} (h : 0xF0 ≤ b.toNat ∧ b.toNat ≤ 0xF4)
    {tail : Bytes} {c : Char} (hc : (Partial.four b.toNat).Completes tail c) :
    String.utf8EncodeChar c = b :: tail := by
  rcases tail with _ | ⟨b₁, _ | ⟨b₂, _ | ⟨b₃, tail⟩⟩⟩
  · contradiction
  · exact absurd (Partial.completes_more.mp hc).2.2 (Partial.not_completes_nil _ c)
  · obtain ⟨-, -, hc⟩ := Partial.completes_more.mp hc
    exact absurd (Partial.completes_more.mp hc).2.2 (Partial.not_completes_nil _ c)
  · obtain ⟨hlow, hhigh, hc⟩ := Partial.completes_more.mp hc
    have hsmall : 0x80 ≤ b₁.toNat ∧ (b.toNat = 0xF0 → 0x90 ≤ b₁.toNat) := by
      split_ifs at hlow <;> omega
    have hlarge : b₁.toNat ≤ 0xBF ∧ (b.toNat = 0xF4 → b₁.toNat ≤ 0x8F) := by
      split_ifs at hhigh <;> omega
    obtain ⟨hlow', hhigh', hc⟩ := Partial.completes_more.mp hc
    obtain ⟨hlow'', hhigh'', rfl, hchar⟩ := Partial.completes_last.mp hc
    have hval := val_of_eq_ofNat hchar (by omega)
    simp only [String.utf8EncodeChar]
    rw [if_neg (by omega), if_neg (by omega), if_neg (by omega),
      ofNat_eq_of_eq_toNat (b := b) (by omega), ofNat_eq_of_eq_toNat (b := b₁) (by omega),
      ofNat_eq_of_eq_toNat (b := b₂) (by omega), ofNat_eq_of_eq_toNat (b := b₃) (by omega)]

/-- Some bytes make up one character: their first byte is the character, or begins it and the others
complete it. -/
def ReadAs (c : Char) : Bytes → Prop
  | [] => False
  | b :: tail =>
    match lead? b.toNat with
    | none => False
    | some (.inl d) => d = c ∧ tail = []
    | some (.inr p) => p.Completes tail c

lemma encodeChar_of_readAs {c : Char} {bytes : Bytes} (h : ReadAs c bytes) :
    String.utf8EncodeChar c = bytes := by
  rcases bytes with _ | ⟨b, tail⟩
  · contradiction
  · simp only [ReadAs, lead?_eq] at h
    split_ifs at h with hone htwo hthree hfour
    · obtain ⟨hc, rfl⟩ := h
      have hval := val_of_eq_ofNat hc.symm (by omega)
      rw [String.utf8EncodeChar, if_pos (by omega), ofNat_eq_of_eq_toNat (b := b) hval]
    · exact encodeChar_of_completes_two htwo h
    · exact encodeChar_of_completes_three hthree h
    · exact encodeChar_of_completes_four hfour h
    · exact absurd h id

/-- A byte of a character is given by the number that it stands for. -/
lemma toNat_ofNat_eq {n m : Nat} (h : n = m ∧ m < 0x100) : (UInt8.ofNat n).toNat = m := by
  rw [h.1]
  exact UInt8.toNat_ofNat_of_lt h.2

lemma readAs_of_completes {b : UInt8} {tail : Bytes} {p : Partial} {c : Char}
    (hb : lead? b.toNat = some (.inr p)) (h : p.Completes tail c) : ReadAs c (b :: tail) := by
  rw [ReadAs, hb]
  exact h

/-- A byte behind the first one holds six bits of the character. -/
lemma toNat_sixBits (n : Nat) : (UInt8.ofNat (n % 64 + 128)).toNat = n % 64 + 0x80 :=
  toNat_ofNat_eq (by omega)

lemma readAs_encodeChar (c : Char) : ReadAs c (String.utf8EncodeChar c) := by
  have hc : Char.ofNat c.val.toNat = c := Char.ofNat_toNat c
  have hvalid : c.val.toNat < 0xD800 ∨ 0xDFFF < c.val.toNat ∧ c.val.toNat < 0x110000 := c.valid
  simp only [String.utf8EncodeChar]
  generalize c.val.toNat = v at hc hvalid
  subst hc
  split_ifs with hone htwo hthree
  · have hb : (UInt8.ofNat v).toNat = v := toNat_ofNat_eq (by omega)
    have hlead : lead? v = some (.inl (Char.ofNat v)) := by rw [lead?_eq, if_pos (by omega)]
    rw [ReadAs, hb, hlead]
    exact ⟨rfl, rfl⟩
  · have hb : (UInt8.ofNat (v / 64 % 32 + 192)).toNat = v / 64 + 0xC0 := toNat_ofNat_eq (by omega)
    have hlead : lead? (UInt8.ofNat (v / 64 % 32 + 192)).toNat =
        some (.inr (.two (v / 64 + 0xC0))) := by
      rw [hb, lead?_eq, if_neg (by omega), if_pos (by omega)]
    refine readAs_of_completes hlead (Partial.completes_last.mpr ?_)
    rw [toNat_sixBits]
    exact ⟨by omega, by omega, rfl, congrArg _ (by omega)⟩
  · have hb : (UInt8.ofNat (v / 4096 % 16 + 224)).toNat = v / 4096 + 0xE0 :=
      toNat_ofNat_eq (by omega)
    have hb₁ := toNat_sixBits (v / 64)
    have hlead : lead? (UInt8.ofNat (v / 4096 % 16 + 224)).toNat =
        some (.inr (.three (v / 4096 + 0xE0))) := by
      rw [hb, lead?_eq, if_neg (by omega), if_neg (by omega), if_pos (by omega)]
    refine readAs_of_completes hlead <| Partial.completes_more.mpr ⟨?_, ?_,
      Partial.completes_last.mpr ?_⟩
    · split_ifs <;> omega
    · split_ifs <;> omega
    · rw [hb₁, toNat_sixBits]
      exact ⟨by omega, by omega, rfl, congrArg _ (by omega)⟩
  · have hb : (UInt8.ofNat (v / 262144 % 8 + 240)).toNat = v / 262144 + 0xF0 :=
      toNat_ofNat_eq (by omega)
    have hb₁ := toNat_sixBits (v / 4096)
    have hb₂ := toNat_sixBits (v / 64)
    have hlead : lead? (UInt8.ofNat (v / 262144 % 8 + 240)).toNat =
        some (.inr (.four (v / 262144 + 0xF0))) := by
      rw [hb, lead?_eq, if_neg (by omega), if_neg (by omega), if_neg (by omega), if_pos (by omega)]
    refine readAs_of_completes hlead <| Partial.completes_more.mpr ⟨?_, ?_,
      Partial.completes_more.mpr ⟨by omega, by omega, Partial.completes_last.mpr ?_⟩⟩
    · split_ifs <;> omega
    · split_ifs <;> omega
    · rw [hb₁, hb₂, toNat_sixBits]
      exact ⟨by omega, by omega, rfl, congrArg _ (by omega)⟩

/-- The bytes that make up a character are those that spell it. -/
theorem readAs_iff {c : Char} {bytes : Bytes} :
    ReadAs c bytes ↔ String.utf8EncodeChar c = bytes := by
  refine ⟨encodeChar_of_readAs, ?_⟩
  rintro rfl
  exact readAs_encodeChar c

namespace Machine

lemma foldl_step_of_completes {p : Partial} {tail : Bytes} {c : Char} (h : p.Completes tail c)
    (read : List (Option Char)) : tail.foldl step ⟨read, some p⟩ = ⟨some c :: read, none⟩ := by
  induction tail generalizing p with
  | nil => exact absurd h (Partial.not_completes_nil p c)
  | cons b tail ih =>
    obtain ⟨bits, low, high, more⟩ := p
    cases more with
    | zero =>
      obtain ⟨hlow, hhigh, rfl, hc⟩ := Partial.completes_last.mp h
      simp only [List.foldl_cons, List.foldl_nil, step, hlow, hhigh, and_self, if_true, hc]
    | succ more =>
      obtain ⟨hlow, hhigh, h⟩ := Partial.completes_more.mp h
      simp only [List.foldl_cons, step, hlow, hhigh, and_self, if_true, ih h]

lemma foldl_step_of_readAs {c : Char} {bytes : Bytes} (h : ReadAs c bytes)
    (read : List (Option Char)) : bytes.foldl step ⟨read, none⟩ = ⟨some c :: read, none⟩ := by
  rcases bytes with _ | ⟨b, tail⟩
  · contradiction
  · have hstep : step ⟨read, none⟩ b = begin read b.toNat := rfl
    rw [ReadAs] at h
    rw [List.foldl_cons, hstep, begin]
    rcases hlead : lead? b.toNat with _ | d | p
    · rw [hlead] at h
      contradiction
    · rw [hlead] at h
      obtain ⟨rfl, rfl⟩ := h
      rfl
    · rw [hlead] at h
      exact foldl_step_of_completes h read

/-- From between two characters the machine reads the spelling of a text as that text. -/
lemma foldl_step_encode (text : Text) (read : List (Option Char)) :
    (encode text).foldl step ⟨read, none⟩ = ⟨(text.map some).reverse ++ read, none⟩ := by
  induction text generalizing read with
  | nil => rfl
  | cons c text ih =>
    rw [encode, List.flatMap_cons, List.foldl_append,
      foldl_step_of_readAs (readAs_encodeChar c) read]
    rw [← encode, ih]
    simp

lemma mem_finish {m : Machine} (h : none ∈ m.read) : none ∈ m.finish := by
  unfold finish
  split <;> simp [h]

lemma mem_read_begin {read : List (Option Char)} (h : none ∈ read) (b : Nat) :
    none ∈ (begin read b).read := by
  unfold begin
  split <;> simp [h]

lemma mem_read_step {m : Machine} (h : none ∈ m.read) (b : UInt8) : none ∈ (m.step b).read := by
  unfold step
  dsimp only
  split
  · exact mem_read_begin h b.toNat
  · split_ifs
    · split <;> simp [h]
    · exact mem_read_begin (List.mem_cons_of_mem _ h) b.toNat

lemma mem_finish_foldl {m : Machine} (h : none ∈ m.read) (bytes : Bytes) :
    none ∈ (bytes.foldl step m).finish := by
  induction bytes generalizing m with
  | nil => exact mem_finish h
  | cons b bytes ih => exact ih (mem_read_step h b)

/-- If no ill-formed part is found, the character under way is completed. -/
lemma exists_completes {p : Partial} {read : List (Option Char)} {bytes : Bytes}
    (h : none ∉ (bytes.foldl step ⟨read, some p⟩).finish) :
    ∃ c tail rest, bytes = tail ++ rest ∧ p.Completes tail c := by
  induction bytes generalizing p with
  | nil => simp [finish] at h
  | cons b bytes ih =>
    obtain ⟨bits, low, high, more⟩ := p
    by_cases hb : low ≤ b.toNat ∧ b.toNat ≤ high
    · cases more with
      | zero => exact ⟨_, [b], bytes, rfl, Partial.completes_last.mpr ⟨hb.1, hb.2, rfl, rfl⟩⟩
      | succ more =>
        simp only [List.foldl_cons, step, hb, and_self, if_true] at h
        obtain ⟨c, tail, rest, rfl, hc⟩ := ih h
        exact ⟨c, b :: tail, rest, rfl, Partial.completes_more.mpr ⟨hb.1, hb.2, hc⟩⟩
    · refine absurd ?_ h
      rw [List.foldl_cons, step]
      dsimp only
      rw [if_neg hb]
      exact mem_finish_foldl (mem_read_begin List.mem_cons_self b.toNat) bytes

lemma exists_readAs {read : List (Option Char)} {b : UInt8} {bytes : Bytes}
    (h : none ∉ ((b :: bytes).foldl step ⟨read, none⟩).finish) :
    ∃ c front rest, b :: bytes = front ++ rest ∧ ReadAs c front := by
  rw [List.foldl_cons, step, begin] at h
  dsimp only at h
  split at h
  · exact absurd (mem_finish_foldl List.mem_cons_self bytes) h
  · rename_i c hc
    exact ⟨c, [b], bytes, rfl, by rw [ReadAs, hc]; exact ⟨rfl, rfl⟩⟩
  · rename_i p hp
    obtain ⟨c, tail, rest, rfl, hc⟩ := exists_completes h
    exact ⟨c, b :: tail, rest, rfl, readAs_of_completes hp hc⟩

/-- If no ill-formed part is found, the bytes are the spelling of a text. -/
lemma exists_encode (read : List (Option Char)) :
    ∀ bytes : Bytes, none ∉ (bytes.foldl step ⟨read, none⟩).finish → ∃ text, encode text = bytes
  | [], _ => ⟨[], rfl⟩
  | b :: bytes, h => by
    obtain ⟨c, front, rest, hbytes, hc⟩ := exists_readAs h
    have hshorter : rest.length < (b :: bytes).length := by
      have hfront : front ≠ [] := by
        rintro rfl
        contradiction
      have hpos := List.length_pos_iff.mpr hfront
      rw [hbytes, List.length_append]
      omega
    rw [hbytes, List.foldl_append, foldl_step_of_readAs hc] at h
    obtain ⟨text, rfl⟩ := exists_encode (some c :: read) rest h
    exact ⟨c :: text, by rw [hbytes, ← readAs_iff.mp hc]; rfl⟩
termination_by bytes => bytes.length
decreasing_by exact hshorter

end Machine

lemma scan_encode (text : Text) : scan (encode text) = text.map some := by
  rw [scan, Machine.foldl_step_encode, Machine.finish]
  simp

lemma mapM_id_eq_some_iff {read : List (Option Char)} {text : Text} :
    read.mapM id = some text ↔ read = text.map some := by
  induction read generalizing text with
  | nil => cases text <;> simp
  | cons c read ih =>
    cases c with
    | none => cases text <;> simp
    | some c => cases text <;> simp [Option.bind_eq_some_iff, ih, and_comm]

/-- Bytes are read as a text exactly if they are the spelling of that text. -/
theorem decode?_eq_some_iff {bytes : Bytes} {text : Text} :
    decode? bytes = some text ↔ encode text = bytes := by
  rw [decode?, mapM_id_eq_some_iff]
  constructor
  · intro h
    have hgood : none ∉ scan bytes := by simp [h]
    obtain ⟨text', rfl⟩ := Machine.exists_encode [] bytes hgood
    rw [scan_encode] at h
    rw [List.map_injective_iff.mpr (fun _ _ => Option.some.inj) h]
  · rintro rfl
    exact scan_encode text

/-- Bytes are not read exactly if they are the spelling of no text. -/
theorem decode?_eq_none_iff {bytes : Bytes} :
    decode? bytes = none ↔ ∀ text, encode text ≠ bytes := by
  simp only [Option.eq_none_iff_forall_ne_some, ne_eq, decode?_eq_some_iff]

end LineTemplate.Utf8
