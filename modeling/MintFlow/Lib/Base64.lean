import Mathlib.Data.Nat.Basic
import Mathlib.Data.List.Basic

set_option relaxedAutoImplicit false
set_option autoImplicit false

/-!
# Base64

Three bytes are four characters of six bits each, in the alphabet that is safe in a URL. A shorter
last group is filled up with `=`. The reader takes either alphabet, as a strict reader told to
replace the two last characters of the alphabet does.

## Main definitions

* `Transact.Base64.encode`, `Transact.Base64.decode` — bytes as characters, and back.
* `Transact.Base64.unpad`, `Transact.Base64.pad` — without `=` at the end, and with it again.

## Main results

* `Transact.Base64.decode_pad_unpad` — encoded bytes read back, also when their padding was dropped.
-/

namespace Transact.Base64

/-- The alphabet. -/
def alphabet : List Char :=
  "ABCDEFGHIJKLMNOPQRSTUVWXYZabcdefghijklmnopqrstuvwxyz0123456789-_".toList

/-- The character of six bits. -/
def character (n : ℕ) : Char := alphabet.getD n 'A'

/-- The six bits of a character. -/
def sextet (c : Char) : Option ℕ :=
  if c = '+' then some 62 else if c = '/' then some 63 else alphabet.idxOf? c

/-- A character reads back. -/
lemma sextet_character {n : ℕ} (h : n < 64) : sextet (character n) = some n := by
  have hall : ∀ n < 64, sextet (character n) = some n := by decide +kernel
  exact hall n h

/-- No character of the alphabet is the filler. -/
lemma character_ne_filler {n : ℕ} (h : n < 64) : character n ≠ '=' := by
  have hall : ∀ n < 64, character n ≠ '=' := by decide +kernel
  exact hall n h

/-- Bytes as characters. -/
def encode : List UInt8 → List Char
  | [] => []
  | [a] => [character (a.toNat / 4), character (a.toNat % 4 * 16), '=', '=']
  | [a, b] =>
    [character (a.toNat / 4), character (a.toNat % 4 * 16 + b.toNat / 16),
      character (b.toNat % 16 * 4), '=']
  | a :: b :: c :: rest =>
    character (a.toNat / 4) :: character (a.toNat % 4 * 16 + b.toNat / 16) ::
      character (b.toNat % 16 * 4 + c.toNat / 64) :: character (c.toNat % 64) :: encode rest

/-- Characters as bytes, if they are some. -/
def decode : List Char → Option (List UInt8)
  | [] => some []
  | [w, x, '=', '='] => do
    let w ← sextet w
    let x ← sextet x
    some [UInt8.ofNat (w * 4 + x / 16)]
  | [w, x, y, '='] => do
    let w ← sextet w
    let x ← sextet x
    let y ← sextet y
    some [UInt8.ofNat (w * 4 + x / 16), UInt8.ofNat (x % 16 * 16 + y / 4)]
  | w :: x :: y :: z :: rest => do
    let w ← sextet w
    let x ← sextet x
    let y ← sextet y
    let z ← sextet z
    let bytes ← decode rest
    some (UInt8.ofNat (w * 4 + x / 16) :: UInt8.ofNat (x % 16 * 16 + y / 4) ::
      UInt8.ofNat (y % 4 * 64 + z) :: bytes)
  | _ => none

/-- A byte is what its number says. -/
lemma ofNat_eq {a : UInt8} {n : ℕ} (h : n = a.toNat) : UInt8.ofNat n = a := by
  rw [h]
  exact UInt8.ofNat_toNat

/-- **Round trip.** Encoded bytes read back.

**Proof sketch.** By the groups of three bytes of `encode`: each byte is put together again from the
bits of its two neighbouring characters, which are below 64. -/
theorem decode_encode (bytes : List UInt8) : decode (encode bytes) = some bytes := by
  induction bytes using encode.induct with
  | case1 => rfl
  | case2 a =>
    have ha := a.toNat_lt
    rw [encode, decode, sextet_character (by omega), sextet_character (by omega)]
    exact congrArg (fun b => some [b]) (ofNat_eq (by omega))
  | case3 a b =>
    have ha := a.toNat_lt
    have hb := b.toNat_lt
    have hlast := character_ne_filler (n := b.toNat % 16 * 4) (by omega)
    rw [encode, decode, sextet_character (by omega), sextet_character (by omega),
      sextet_character (by omega)]
    · have hfirst : UInt8.ofNat (a.toNat / 4 * 4 + (a.toNat % 4 * 16 + b.toNat / 16) / 16) = a :=
        ofNat_eq (by omega)
      have hsecond : UInt8.ofNat ((a.toNat % 4 * 16 + b.toNat / 16) % 16 * 16 +
          b.toNat % 16 * 4 / 4) = b := ofNat_eq (by omega)
      simp only [Option.bind_eq_bind, Option.bind_some, hfirst, hsecond]
    · exact hlast
  | case4 a b c rest ih =>
    have ha := a.toNat_lt
    have hb := b.toNat_lt
    have hc := c.toNat_lt
    have hlast := character_ne_filler (n := c.toNat % 64) (by omega)
    have hfirst : UInt8.ofNat (a.toNat / 4 * 4 + (a.toNat % 4 * 16 + b.toNat / 16) / 16) = a :=
      ofNat_eq (by omega)
    have hsecond : UInt8.ofNat ((a.toNat % 4 * 16 + b.toNat / 16) % 16 * 16 +
        (b.toNat % 16 * 4 + c.toNat / 64) / 4) = b := ofNat_eq (by omega)
    have hthird : UInt8.ofNat ((b.toNat % 16 * 4 + c.toNat / 64) % 4 * 64 + c.toNat % 64) = c :=
      ofNat_eq (by omega)
    rw [encode, decode, sextet_character (by omega), sextet_character (by omega),
      sextet_character (by omega), sextet_character (by omega), ih]
    · simp only [Option.bind_eq_bind, Option.bind_some, hfirst, hsecond, hthird]
    · rintro - h -
      exact hlast h
    · rintro h -
      exact hlast h

/-- Characters are at least as many as the bytes they denote.

**Proof sketch.** Induction along the decoder: a full group has four characters for three bytes, and
the last groups have two or three for one or two. -/
lemma length_decode_le {cs : List Char} {bytes : List UInt8} (h : decode cs = some bytes) :
    bytes.length ≤ cs.length := by
  induction cs using decode.induct generalizing bytes with
  | case1 =>
    obtain rfl := Option.some.inj h
    exact le_rfl
  | case2 w x =>
    rw [decode] at h
    obtain ⟨_, -, h⟩ := Option.bind_eq_some_iff.mp h
    obtain ⟨_, -, h⟩ := Option.bind_eq_some_iff.mp h
    obtain rfl := Option.some.inj h
    simp
  | case3 w x y hy =>
    rw [decode] at h
    · obtain ⟨_, -, h⟩ := Option.bind_eq_some_iff.mp h
      obtain ⟨_, -, h⟩ := Option.bind_eq_some_iff.mp h
      obtain ⟨_, -, h⟩ := Option.bind_eq_some_iff.mp h
      obtain rfl := Option.some.inj h
      simp
    · exact hy
  | case4 w x y z rest hfilled hfiller ih =>
    rw [decode] at h
    · obtain ⟨_, -, h⟩ := Option.bind_eq_some_iff.mp h
      obtain ⟨_, -, h⟩ := Option.bind_eq_some_iff.mp h
      obtain ⟨_, -, h⟩ := Option.bind_eq_some_iff.mp h
      obtain ⟨_, -, h⟩ := Option.bind_eq_some_iff.mp h
      obtain ⟨tail, htail, h⟩ := Option.bind_eq_some_iff.mp h
      obtain rfl := Option.some.inj h
      have hlength := ih htail
      simp only [List.length_cons]
      omega
    · exact hfilled
    · exact hfiller
  | case5 cs =>
    rw [decode] at h
    · cases h
    all_goals assumption

/-! ## Padding -/

/-- `rstrip` of the filler. -/
def unpad (cs : List Char) : List Char := (cs.reverse.dropWhile (· = '=')).reverse

/-- Filled up to groups of four. -/
def pad (cs : List Char) : List Char := cs ++ List.replicate ((4 - cs.length % 4) % 4) '='

/-- Dropping the filler after other characters. -/
lemma unpad_append {cs : List Char} (n : ℕ) (h : ∀ c ∈ cs, c ≠ '=') :
    unpad (cs ++ List.replicate n '=') = cs := by
  unfold unpad
  rw [List.reverse_append, List.reverse_replicate]
  have hdrop : ∀ n, (List.replicate n '=' ++ cs.reverse).dropWhile (· = '=') = cs.reverse := by
    intro n
    induction n with
    | zero =>
      rw [List.replicate_zero, List.nil_append]
      cases hcs : cs.reverse with
      | nil => rfl
      | cons c rest =>
        have hmem : c ∈ cs := List.mem_reverse.mp (hcs ▸ List.mem_cons_self)
        rw [List.dropWhile_cons_of_neg]
        simpa using h c hmem
    | succ n ih =>
      rw [List.replicate_succ, List.cons_append, List.dropWhile_cons_of_pos (by simp), ih]
  rw [hdrop, List.reverse_reverse]

/-- Encoded bytes are characters of the alphabet, and as much filler as completes a group.

**Proof sketch.** Induction along the encoder: a group of three bytes adds four characters of the
alphabet, which leaves the filler as it is. -/
lemma encode_eq (bytes : List UInt8) :
    ∃ cs, (∀ c ∈ cs, c ≠ '=') ∧
      encode bytes = cs ++ List.replicate ((4 - cs.length % 4) % 4) '=' := by
  induction bytes using encode.induct with
  | case1 => exact ⟨[], by simp, rfl⟩
  | case2 a =>
    have ha := a.toNat_lt
    refine ⟨[character (a.toNat / 4), character (a.toNat % 4 * 16)], ?_, rfl⟩
    simp only [List.forall_mem_cons]
    exact ⟨character_ne_filler (by omega), character_ne_filler (by omega), by simp⟩
  | case3 a b =>
    have ha := a.toNat_lt
    have hb := b.toNat_lt
    refine ⟨[character (a.toNat / 4), character (a.toNat % 4 * 16 + b.toNat / 16),
      character (b.toNat % 16 * 4)], ?_, rfl⟩
    simp only [List.forall_mem_cons]
    exact ⟨character_ne_filler (by omega), character_ne_filler (by omega),
      character_ne_filler (by omega), by simp⟩
  | case4 a b c rest ih =>
    have ha := a.toNat_lt
    have hb := b.toNat_lt
    have hc := c.toNat_lt
    obtain ⟨cs, hcs, heq⟩ := ih
    refine ⟨character (a.toNat / 4) :: character (a.toNat % 4 * 16 + b.toNat / 16) ::
      character (b.toNat % 16 * 4 + c.toNat / 64) :: character (c.toNat % 64) :: cs, ?_, ?_⟩
    · simp only [List.forall_mem_cons]
      exact ⟨character_ne_filler (by omega), character_ne_filler (by omega),
        character_ne_filler (by omega), character_ne_filler (by omega), hcs⟩
    · have hlength : (cs.length + 1 + 1 + 1 + 1) % 4 = cs.length % 4 := by omega
      rw [encode, heq]
      simp only [List.length_cons, hlength, List.cons_append]

/-- Four characters for each group of three bytes. -/
lemma length_encode (bytes : List UInt8) : (encode bytes).length = (bytes.length + 2) / 3 * 4 := by
  induction bytes using encode.induct with
  | case1 => rfl
  | case2 a => simp [encode]
  | case3 a b => simp [encode]
  | case4 a b c rest ih =>
    simp only [encode, List.length_cons, ih]
    omega

/-- Dropping the filler leaves at most what was there. -/
lemma length_unpad_le (cs : List Char) : (unpad cs).length ≤ cs.length := by
  unfold unpad
  have hdropped := (List.dropWhile_suffix (· = '=') (l := cs.reverse)).length_le
  rw [List.length_reverse] at hdropped ⊢
  exact hdropped

/-- The filler that was dropped is known from the length. -/
lemma pad_unpad (bytes : List UInt8) : pad (unpad (encode bytes)) = encode bytes := by
  obtain ⟨cs, hcs, heq⟩ := encode_eq bytes
  rw [heq, unpad_append _ hcs, pad]

/-- **Round trip without filler.** -/
theorem decode_pad_unpad (bytes : List UInt8) : decode (pad (unpad (encode bytes))) = some bytes := by
  rw [pad_unpad, decode_encode]

end Transact.Base64
