import Cs118.Lib.Bytes
import Mathlib.Data.List.TakeWhile
/-!
# Text as bytes

Lines and words, and what the C library's `fgets` and `%s` make of them.
-/

namespace Cs118.Lib.Text

open Cs118.Lib.Bytes

def newline : UInt8 := 0x0a

def isSpace (c : UInt8) : Bool := c == 0x20 || (0x09 ≤ c && c ≤ 0x0d)

/-! ## Lines -/

/-- The lines of a text, each with its newline; the last one may lack it. -/
def lines : Buffer → List Buffer
  | [] => []
  | c :: rest =>
    if c = newline then [c] :: lines rest
    else
      match lines rest with
      | [] => [[c]]
      | line :: more => (c :: line) :: more

theorem lines_newline (rest : Buffer) : lines (newline :: rest) = [newline] :: lines rest := by
  rw [lines, if_pos rfl]

theorem lines_cons {c : UInt8} (h : c ≠ newline) {rest : Buffer} {line : Buffer}
    {more : List Buffer} (hrest : lines rest = line :: more) :
    lines (c :: rest) = (c :: line) :: more := by
  rw [lines, if_neg h, hrest]

theorem lines_eq_nil_iff {text : Buffer} : lines text = [] ↔ text = [] := by
  cases text with
  | nil => exact iff_of_true rfl rfl
  | cons c rest =>
      refine iff_of_false ?_ (by simp)
      unfold lines
      split_ifs
      · simp
      · cases lines rest <;> simp

@[simp] theorem flatten_lines (text : Buffer) : (lines text).flatten = text := by
  induction text with
  | nil => rfl
  | cons c rest ih =>
      by_cases hc : c = newline
      · rw [hc, lines_newline, List.flatten_cons, ih, List.singleton_append]
      · cases hrest : lines rest with
        | nil =>
            rw [lines, if_neg hc, hrest, lines_eq_nil_iff.mp hrest]
            rfl
        | cons line more =>
            rw [hrest] at ih
            rw [lines_cons hc hrest, ← ih]
            rfl

theorem length_lines_le (text : Buffer) : (lines text).length ≤ text.length := by
  induction text with
  | nil => exact Nat.le_refl 0
  | cons c rest ih =>
      by_cases hc : c = newline
      · rw [hc, lines_newline, List.length_cons, List.length_cons]
        omega
      · cases hrest : lines rest with
        | nil =>
            rw [lines, if_neg hc, hrest]
            simp
        | cons line more =>
            rw [hrest] at ih
            rw [lines_cons hc hrest, List.length_cons]
            rw [List.length_cons] at ih
            simp only [List.length_cons]
            omega

theorem mem_of_mem_lines {text line : Buffer} (h : line ∈ lines text) {c : UInt8} (hc : c ∈ line) :
    c ∈ text := by
  rw [← flatten_lines text]
  exact List.mem_flatten.mpr ⟨line, h, hc⟩

/-! ## `fgets` -/

def readLine : Nat → Buffer → Buffer × Buffer
  | 0, stream => ([], stream)
  | _ + 1, [] => ([], [])
  | room + 1, c :: rest =>
    if c = newline then ([c], rest)
    else (c :: (readLine room rest).1, (readLine room rest).2)

/-- `fgets` with a buffer of `size` bytes, `none` at the end of the stream. -/
def fgets (size : Nat) (stream : Buffer) : Option (Buffer × Buffer) :=
  if stream = [] then none else some (readLine (size - 1) stream)

/-- What at most `count` calls of `fgets` give. -/
def reads (size : Nat) : Nat → Buffer → List Buffer
  | 0, _ => []
  | count + 1, stream =>
    match fgets size stream with
    | none => []
    | some (line, rest) => line :: reads size count rest

theorem readLine_of_lines {room : Nat} {stream line : Buffer} {more : List Buffer}
    (h : lines stream = line :: more) (hfits : line.length ≤ room) :
    (readLine room stream).1 = line ∧ lines (readLine room stream).2 = more := by
  induction stream generalizing room line more with
  | nil => simp [lines] at h
  | cons c rest ih =>
      by_cases hc : c = newline
      · subst hc
        rw [lines_newline] at h
        obtain ⟨rfl, rfl⟩ := List.cons.inj h
        obtain ⟨room, rfl⟩ := Nat.exists_eq_add_of_le' hfits
        rw [List.length_singleton, readLine, if_pos rfl]
        exact ⟨rfl, rfl⟩
      · cases hrest : lines rest with
        | nil =>
            rw [lines, if_neg hc, hrest] at h
            obtain ⟨rfl, rfl⟩ := List.cons.inj h
            obtain ⟨room, rfl⟩ := Nat.exists_eq_add_of_le' hfits
            rw [lines_eq_nil_iff.mp hrest, List.length_singleton, readLine, if_neg hc]
            cases room <;> exact ⟨rfl, rfl⟩
        | cons first others =>
            rw [lines_cons hc hrest] at h
            obtain ⟨rfl, rfl⟩ := List.cons.inj h
            obtain ⟨room, rfl⟩ := Nat.exists_eq_add_of_le' hfits
            obtain ⟨hline, hmore⟩ := ih hrest (Nat.le_add_left first.length room)
            rw [List.length_cons, ← Nat.add_assoc, readLine, if_neg hc, hline]
            exact ⟨rfl, hmore⟩

/-- `fgets` reads a text with short lines line by line. -/
theorem reads_eq_lines {size count : Nat} {stream : Buffer}
    (hshort : ∀ line ∈ lines stream, line.length < size) (hcount : (lines stream).length ≤ count) :
    reads size count stream = lines stream := by
  induction count generalizing stream with
  | zero => rw [List.length_eq_zero_iff.mp (Nat.le_zero.mp hcount), reads]
  | succ count ih =>
      cases hlines : lines stream with
      | nil => rw [lines_eq_nil_iff.mp hlines, reads, fgets, if_pos rfl]
      | cons line more =>
          rw [hlines] at hshort hcount
          have hne : stream ≠ [] := fun hnil => by simp [hnil, lines] at hlines
          obtain ⟨hfirst, hrest⟩ := readLine_of_lines hlines
            (Nat.le_sub_one_of_lt (hshort line List.mem_cons_self))
          rw [reads, fgets, if_neg hne]
          dsimp only
          rw [hfirst, ih, hrest]
          · rw [hrest]
            exact fun other hother => hshort other (List.mem_cons_of_mem _ hother)
          · rw [hrest]
            simpa using hcount

/-! ## Words -/

/-- `%s`: the next word and what follows it. -/
def scanString (text : Buffer) : Option (Buffer × Buffer) :=
  let text := text.dropWhile isSpace
  if text = [] then none else some (text.takeWhile (!isSpace ·), text.dropWhile (!isSpace ·))

/-- The words that are still to be read when `word` has been read so far. -/
def wordsFrom : Buffer → Buffer → List Buffer
  | word, [] => if word = [] then [] else [word]
  | word, c :: rest =>
    if isSpace c then if word = [] then wordsFrom [] rest else word :: wordsFrom [] rest
    else wordsFrom (word ++ [c]) rest

def words (text : Buffer) : List Buffer := wordsFrom [] text

theorem wordsFrom_cons (first : UInt8) (word text : Buffer) :
    wordsFrom (first :: word) text =
      (first :: word ++ text.takeWhile (!isSpace ·)) :: words (text.dropWhile (!isSpace ·)) := by
  induction text generalizing word with
  | nil => simp [wordsFrom, words]
  | cons c rest ih =>
      by_cases hc : isSpace c
      · rw [wordsFrom, if_pos hc, if_neg (by simp), List.takeWhile_cons_of_neg (by simp [hc]),
          List.dropWhile_cons_of_neg (by simp [hc]), List.append_nil, words, wordsFrom, if_pos hc,
          if_pos rfl]
      · rw [wordsFrom, if_neg hc, List.cons_append, ih, List.takeWhile_cons_of_pos (by simp [hc]),
          List.dropWhile_cons_of_pos (by simp [hc])]
        simp

theorem words_dropWhile_isSpace (text : Buffer) : words (text.dropWhile isSpace) = words text := by
  induction text with
  | nil => rfl
  | cons c rest ih =>
      by_cases hc : isSpace c
      · rw [List.dropWhile_cons_of_pos hc, ih, words, words, wordsFrom, if_pos hc, if_pos rfl]
      · rw [List.dropWhile_cons_of_neg hc]

theorem words_eq (text : Buffer) :
    words text =
      match scanString text with
      | none => []
      | some (word, rest) => word :: words rest := by
  rw [← words_dropWhile_isSpace, scanString]
  cases htext : text.dropWhile isSpace with
  | nil => rfl
  | cons c rest =>
      have hc : isSpace c = false := by
        have hhead := List.head?_dropWhile_not isSpace text
        rw [htext] at hhead
        simpa using hhead
      rw [if_neg (by simp), words, wordsFrom, if_neg (by simp [hc]), List.nil_append, wordsFrom_cons,
        List.takeWhile_cons_of_pos (by simp [hc]), List.dropWhile_cons_of_pos (by simp [hc])]
      rfl

theorem words_eq_nil {text : Buffer} (h : scanString text = none) : words text = [] := by
  rw [words_eq, h]

theorem words_eq_cons {text word rest : Buffer} (h : scanString text = some (word, rest)) :
    words text = word :: words rest := by
  rw [words_eq, h]

/-! ## Strings -/

def cString (bytes : Buffer) : Buffer := bytes.takeWhile (· != 0)

theorem cString_eq_self {bytes : Buffer} (h : 0 ∉ bytes) : cString bytes = bytes := by
  apply List.takeWhile_eq_self_iff.mpr
  intro c hc
  simp only [bne_iff_ne]
  exact fun hzero => h (hzero ▸ hc)

def asString (bytes : Buffer) : String := String.ofList (bytes.map fun c => Char.ofNat c.toNat)

def bytesOf (text : String) : Buffer := text.toList.map fun c => UInt8.ofNat c.toNat

@[simp] theorem bytesOf_asString (bytes : Buffer) : bytesOf (asString bytes) = bytes := by
  unfold bytesOf asString
  rw [String.toList_ofList, List.map_map]
  refine (List.map_congr_left fun c _ => ?_).trans (List.map_id bytes)
  have hchar : (Char.ofNat c.toNat).toNat = c.toNat := by
    have hvalid : c.toNat.isValidChar := Or.inl (c.toNat_lt.trans (by decide))
    rw [Char.ofNat, dif_pos hvalid]
    rfl
  rw [Function.comp_apply, hchar, UInt8.ofNat_toNat]
  rfl

/-! ## Numbers and addresses -/

def digitValue (c : UInt8) : Option Nat :=
  if 0x30 ≤ c ∧ c ≤ 0x39 then some (c.toNat - 0x30)
  else if 0x41 ≤ c ∧ c ≤ 0x46 then some (c.toNat - 0x37)
  else if 0x61 ≤ c ∧ c ≤ 0x66 then some (c.toNat - 0x57)
  else none

/-- The digits of `base` at the beginning of a text, after those that make `value`. -/
def numeral (base : Nat) : Nat → Buffer → Nat × Buffer
  | value, [] => (value, [])
  | value, c :: rest =>
    match (digitValue c).filter (· < base) with
    | some digit => numeral base (base * value + digit) rest
    | none => (value, c :: rest)

/-- `strtoul` with base 0, for a text that begins with a digit, before it is cut to the
range of the result. -/
def strtoul : Buffer → Nat × Buffer
  | [] => (0, [])
  | c :: rest =>
    if c = 0x30 then
      match rest with
      | x :: digit :: more =>
        if (x = 0x78 ∨ x = 0x58) ∧ (digitValue digit).isSome then numeral 16 0 (digit :: more)
        else numeral 8 0 rest
      | _ => numeral 8 0 rest
    else numeral 10 0 (c :: rest)

def startsWithDigit (text : Buffer) : Bool := text.head?.any fun c => 0x30 ≤ c && c ≤ 0x39

/-- The last number of an address fills what the bytes `front` have left free, and only
white space may follow it. -/
def lastPart (front text : Buffer) : Option UInt32 :=
  let part := strtoul text
  if startsWithDigit text ∧ part.1 < 256 ^ (4 - front.length) ∧ part.2.head?.all isSpace then
    some (load32 (front ++ (leBytes (4 - front.length) part.1).reverse))
  else none

/-- The numbers of an address that may have `dots` more dots. -/
def addressFrom : Nat → Buffer → Buffer → Option UInt32
  | 0, front, text => lastPart front text
  | dots + 1, front, text =>
    let part := strtoul text
    if startsWithDigit text ∧ part.1 ≤ 0xff ∧ part.2.head? = some 0x2e then
      addressFrom dots (front ++ [UInt8.ofNat part.1]) part.2.tail
    else lastPart front text

/-- `inet_aton`, `none` where it returns 0: one to four numbers, decimal, octal or
hexadecimal, of which the last fills the bytes that are left. -/
def inetAton (text : Buffer) : Option UInt32 := addressFrom 3 [] text

end Cs118.Lib.Text
