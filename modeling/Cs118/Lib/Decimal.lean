import Cs118.Lib.Text
/-!
# Numbers and words as they are printed

Decimal numbers and dotted addresses, and that `strtoul` and `inet_aton` read them back;
words that are put one after another with white space between them.
-/

namespace Cs118.Lib.Text

open Cs118.Lib.Bytes

/-- `%u`. -/
def decimal (n : Nat) : Buffer := (Nat.toDigits 10 n).map fun c => UInt8.ofNat c.toNat

def digitByte (n : Nat) : UInt8 := 0x30 + UInt8.ofNat n

/-- `inet_ntop` of the address with these four bytes. -/
def dotted (a b c d : UInt8) : Buffer :=
  decimal a.toNat ++ 0x2e :: (decimal b.toNat ++ 0x2e :: (decimal c.toNat ++ 0x2e ::
    decimal d.toNat))

/-! ## Decimal numbers -/

theorem digitByte_spec {n : Nat} (h : n < 10) :
    UInt8.ofNat (Nat.digitChar n).toNat = digitByte n ∧ digitValue (digitByte n) = some n ∧
      0x30 ≤ digitByte n ∧ digitByte n ≤ 0x39 ∧ (digitByte n = 0x30 → n = 0) := by
  have hall : ∀ n < 10, UInt8.ofNat (Nat.digitChar n).toNat = digitByte n ∧
      digitValue (digitByte n) = some n ∧ 0x30 ≤ digitByte n ∧ digitByte n ≤ 0x39 ∧
        (digitByte n = 0x30 → n = 0) := by decide
  exact hall n h

theorem decimal_eq (n : Nat) :
    decimal n = (if n < 10 then [] else decimal (n / 10)) ++ [digitByte (n % 10)] := by
  unfold decimal
  rw [Nat.toDigits_eq_if (by omega), ← (digitByte_spec (Nat.mod_lt n (by omega))).1]
  split_ifs with h
  · rw [Nat.mod_eq_of_lt h]
    rfl
  · rw [List.map_append]
    rfl

theorem decimal_of_lt {n : Nat} (h : n < 10) : decimal n = [digitByte n] := by
  rw [decimal_eq, if_pos h, Nat.mod_eq_of_lt h, List.nil_append]

theorem decimal_of_le {n : Nat} (h : 10 ≤ n) :
    decimal n = decimal (n / 10) ++ [digitByte (n % 10)] := by
  rw [decimal_eq, if_neg (by omega)]

theorem decimal_digits (n : Nat) : ∀ c ∈ decimal n, 0x30 ≤ c ∧ c ≤ 0x39 := by
  induction n using Nat.strong_induction_on with
  | _ n ih =>
      intro c hc
      rw [decimal_eq, List.mem_append] at hc
      rcases hc with hc | hc
      · split_ifs at hc with h
        · simp at hc
        · exact ih (n / 10) (by omega) c hc
      · obtain ⟨-, -, hlow, hhigh, -⟩ := digitByte_spec (Nat.mod_lt n (by omega : 10 > 0))
        rw [List.mem_singleton.mp hc]
        exact ⟨hlow, hhigh⟩

theorem decimal_head (n : Nat) :
    ∃ first rest, decimal n = first :: rest ∧ 0x30 ≤ first ∧ first ≤ 0x39 ∧
      (first = 0x30 → n = 0 ∧ rest = []) := by
  induction n using Nat.strong_induction_on with
  | _ n ih =>
      by_cases h : n < 10
      · obtain ⟨-, -, hlow, hhigh, hzero⟩ := digitByte_spec h
        exact ⟨_, _, decimal_of_lt h, hlow, hhigh, fun heq => ⟨hzero heq, rfl⟩⟩
      · obtain ⟨first, rest, heq, hlow, hhigh, hzero⟩ := ih (n / 10) (by omega)
        refine ⟨first, rest ++ [digitByte (n % 10)], ?_, hlow, hhigh, fun hfirst => ?_⟩
        · rw [decimal_of_le (by omega), heq, List.cons_append]
        · have := (hzero hfirst).1
          omega

theorem length_decimal_le {n k : Nat} (h : n < 10 ^ (k + 1)) : (decimal n).length ≤ k + 1 := by
  induction k generalizing n with
  | zero =>
      rw [decimal_of_lt (by simpa using h), List.length_singleton]
  | succ k ih =>
      by_cases hsmall : n < 10
      · rw [decimal_of_lt hsmall, List.length_singleton]
        omega
      · have hshort := ih (n := n / 10) (by rw [pow_succ] at h; omega)
        rw [decimal_of_le (by omega), List.length_append, List.length_singleton]
        omega

theorem numeral_decimal (n : Nat) (rest : Buffer) :
    numeral 10 0 (decimal n ++ rest) = numeral 10 n rest := by
  induction n using Nat.strong_induction_on generalizing rest with
  | _ n ih =>
      have hdigit := (digitByte_spec (Nat.mod_lt n (by omega : 10 > 0))).2.1
      have hlt : n % 10 < 10 := Nat.mod_lt n (by omega)
      by_cases h : n < 10
      · rw [decimal_of_lt h, List.singleton_append, numeral]
        rw [Nat.mod_eq_of_lt h] at hdigit
        simp only [hdigit, Option.filter_some, h, decide_true, if_true, Nat.mul_zero, Nat.zero_add]
      · rw [decimal_of_le (by omega), List.append_assoc, ih (n / 10) (by omega),
          List.singleton_append, numeral]
        simp only [hdigit, Option.filter_some, hlt, decide_true, if_true]
        congr 1
        omega

def EndsNumber (rest : Buffer) : Prop :=
  ∀ c ∈ rest.head?, digitValue c = none ∧ c ≠ 0x78 ∧ c ≠ 0x58

theorem EndsNumber.numeral {rest : Buffer} (h : EndsNumber rest) (base value : Nat) :
    numeral base value rest = (value, rest) := by
  cases rest with
  | nil => rfl
  | cons c rest =>
      have hnone := (h c rfl).1
      rw [Text.numeral, hnone]
      rfl

theorem strtoul_decimal (n : Nat) {rest : Buffer} (h : EndsNumber rest) :
    strtoul (decimal n ++ rest) = (n, rest) := by
  have hvalue : Text.numeral 10 0 (decimal n ++ rest) = (n, rest) :=
    (numeral_decimal n rest).trans (h.numeral 10 n)
  obtain ⟨first, digits, heq, -, -, hzero⟩ := decimal_head n
  by_cases hfirst : first = 0x30
  · -- `0` alone could be the beginning of an octal or a hexadecimal number
    obtain ⟨rfl, rfl⟩ := hzero hfirst
    rw [heq, hfirst, List.singleton_append, strtoul.eq_def]
    dsimp only
    rw [if_pos rfl]
    rcases rest with _ | ⟨x, _ | ⟨digit, more⟩⟩
    · rfl
    · exact h.numeral 8 0
    · have hx := (h x rfl).2
      dsimp only
      rw [if_neg fun hhex => hhex.1.elim hx.1 hx.2]
      exact h.numeral 8 0
  · rw [heq, List.cons_append] at hvalue ⊢
    rw [strtoul.eq_def]
    dsimp only
    rw [if_neg hfirst, hvalue]

theorem startsWithDigit_decimal (n : Nat) (rest : Buffer) :
    startsWithDigit (decimal n ++ rest) = true := by
  obtain ⟨first, digits, heq, hlow, hhigh, -⟩ := decimal_head n
  rw [heq, List.cons_append, startsWithDigit, List.head?_cons, Option.any_some]
  simp [hlow, hhigh]

/-! ## Addresses -/

theorem endsNumber_dot (rest : Buffer) : EndsNumber (0x2e :: rest) := by
  intro c hc
  obtain rfl : 0x2e = c := by simpa using hc
  decide

theorem addressFrom_decimal (dots : Nat) (front rest : Buffer) (byte : UInt8) :
    addressFrom (dots + 1) front (decimal byte.toNat ++ 0x2e :: rest) =
      addressFrom dots (front ++ [byte]) rest := by
  have hbyte := byte.toNat_lt
  rw [addressFrom, strtoul_decimal _ (endsNumber_dot rest)]
  dsimp only
  rw [if_pos ⟨startsWithDigit_decimal _ _, by omega, rfl⟩, UInt8.ofNat_toNat, List.tail_cons]

theorem addressFrom_last {front : Buffer} (h : front.length = 3) (byte : UInt8) :
    addressFrom 0 front (decimal byte.toNat) = some (load32 (front ++ [byte])) := by
  have hempty : EndsNumber [] := by simp [EndsNumber]
  have hread := strtoul_decimal byte.toNat hempty
  have hstarts := startsWithDigit_decimal byte.toNat []
  rw [List.append_nil] at hread hstarts
  rw [addressFrom, lastPart, hread, h]
  dsimp only
  rw [if_pos ⟨hstarts, by simpa using byte.toNat_lt, rfl⟩]
  have himage : (leBytes (4 - 3) byte.toNat).reverse = [byte] := by
    rw [leBytes, leBytes, List.reverse_singleton, Nat.mod_eq_of_lt byte.toNat_lt,
      UInt8.ofNat_toNat]
  rw [himage]

/-- What `inet_ntop` prints, `inet_aton` reads. -/
theorem inetAton_dotted (a b c d : UInt8) : inetAton (dotted a b c d) = some (load32 [a, b, c, d]) := by
  unfold inetAton dotted
  rw [addressFrom_decimal, addressFrom_decimal, addressFrom_decimal, addressFrom_last rfl]
  rfl

theorem dotted_chars {a b c d byte : UInt8} (h : byte ∈ dotted a b c d) :
    (0x30 ≤ byte ∧ byte ≤ 0x39) ∨ byte = 0x2e := by
  simp only [dotted, List.mem_append, List.mem_cons] at h
  rcases h with h | rfl | h | rfl | h | rfl | h
  · exact Or.inl (decimal_digits _ _ h)
  · exact Or.inr rfl
  · exact Or.inl (decimal_digits _ _ h)
  · exact Or.inr rfl
  · exact Or.inl (decimal_digits _ _ h)
  · exact Or.inr rfl
  · exact Or.inl (decimal_digits _ _ h)

theorem length_dotted_le (a b c d : UInt8) : (dotted a b c d).length ≤ 15 := by
  have hbyte : ∀ byte : UInt8, (decimal byte.toNat).length ≤ 3 := fun byte =>
    length_decimal_le (k := 2) (byte.toNat_lt.trans (by decide))
  have ha := hbyte a
  have hb := hbyte b
  have hc := hbyte c
  have hd := hbyte d
  simp only [dotted, List.length_append, List.length_cons]
  omega

/-! ## Words -/

structure IsWord (word : Buffer) : Prop where
  ne_nil : word ≠ []
  solid : ∀ c ∈ word, isSpace c = false

theorem words_cons_space {c : UInt8} (h : isSpace c = true) (rest : Buffer) :
    words (c :: rest) = words rest := by
  rw [← words_dropWhile_isSpace, List.dropWhile_cons_of_pos h, words_dropWhile_isSpace]

theorem words_append {word : Buffer} (h : IsWord word) {c : UInt8} (hc : isSpace c = true)
    (rest : Buffer) : words (word ++ c :: rest) = word :: words rest := by
  obtain ⟨first, letters, rfl⟩ := List.exists_cons_of_ne_nil h.ne_nil
  have hfirst : isSpace first = false := h.solid first List.mem_cons_self
  have hletters : ∀ x ∈ letters, (!isSpace x) = true := fun x hx => by
    simpa using h.solid x (List.mem_cons_of_mem _ hx)
  rw [List.cons_append, words, wordsFrom, if_neg (by simp [hfirst]), List.nil_append,
    wordsFrom_cons, List.takeWhile_append_of_pos hletters, List.dropWhile_append_of_pos hletters,
    List.takeWhile_cons_of_neg (by simp [hc]), List.dropWhile_cons_of_neg (by simp [hc]),
    words_cons_space hc, List.append_nil, List.singleton_append]

theorem mem_words {text word : Buffer} (h : word ∈ words text) :
    IsWord word ∧ ∀ c ∈ word, c ∈ text := by
  have hgeneral : ∀ (text seen : Buffer), (∀ c ∈ seen, isSpace c = false) →
      ∀ word ∈ wordsFrom seen text, IsWord word ∧ ∀ c ∈ word, c ∈ seen ++ text := by
    intro text
    induction text with
    | nil =>
        intro seen hseen word hword
        rw [wordsFrom] at hword
        split_ifs at hword with hnil
        · simp at hword
        · rw [List.mem_singleton.mp hword, List.append_nil]
          exact ⟨⟨hnil, hseen⟩, fun c hc => hc⟩
    | cons c rest ih =>
        intro seen hseen word hword
        have hlater : word ∈ words rest → IsWord word ∧ ∀ x ∈ word, x ∈ seen ++ c :: rest := by
          intro hrest
          obtain ⟨hisWord, hmem⟩ := ih [] (by simp) word hrest
          exact ⟨hisWord, fun x hx =>
            List.mem_append_right _ (List.mem_cons_of_mem _ (hmem x hx))⟩
        rw [wordsFrom] at hword
        split_ifs at hword with hspace hnil
        · exact hlater hword
        · rcases List.mem_cons.mp hword with rfl | hword
          · exact ⟨⟨hnil, hseen⟩, fun x hx => List.mem_append_left _ hx⟩
          · exact hlater hword
        · have hlonger : ∀ x ∈ seen ++ [c], isSpace x = false := by
            intro x hx
            rcases List.mem_append.mp hx with hx | hx
            · exact hseen x hx
            · rw [List.mem_singleton.mp hx]
              simpa using hspace
          obtain ⟨hisWord, hmem⟩ := ih (seen ++ [c]) hlonger word hword
          rw [List.append_assoc, List.singleton_append] at hmem
          exact ⟨hisWord, hmem⟩
  exact hgeneral text [] (by simp) word h

theorem lines_append {line : Buffer} (h : newline ∉ line) (rest : Buffer) :
    lines (line ++ newline :: rest) = (line ++ [newline]) :: lines rest := by
  induction line with
  | nil => exact lines_newline rest
  | cons c line ih =>
      rw [List.mem_cons, not_or] at h
      rw [List.cons_append, lines_cons (Ne.symm h.1) (ih h.2), List.cons_append]

end Cs118.Lib.Text
