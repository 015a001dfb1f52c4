import Mathlib.Algebra.Ring.Nat
import Mathlib.Data.List.Basic

/-!
# Text as lists of characters

The string functions of the Rust standard library that the model needs, on lists of characters (they reduce in the
kernel), and the facts about separators and decimal numerals that make ids readable back.
-/
namespace Text

/-- `str::len`: the length in UTF-8 bytes. -/
def utf8Len (cs : List Char) : Nat := (cs.map Char.utf8Size).sum

/-- `char::is_whitespace` (the Unicode `White_Space` property). -/
def isWhitespace (c : Char) : Bool :=
  let n := c.toNat
  (9 ≤ n && n ≤ 13) || n == 32 || n == 0x85 || n == 0xA0 || n == 0x1680 || (0x2000 ≤ n && n ≤ 0x200A) ||
    n == 0x2028 || n == 0x2029 || n == 0x202F || n == 0x205F || n == 0x3000

/-- `str::trim`. -/
def trim (cs : List Char) : List Char :=
  ((cs.dropWhile isWhitespace).reverse.dropWhile isWhitespace).reverse

/-- `u8::is_ascii_alphanumeric`, on characters. -/
def isAsciiAlphanumeric (c : Char) : Bool :=
  c.isDigit || ('a' ≤ c && c ≤ 'z') || ('A' ≤ c && c ≤ 'Z')

/-- `str::split_once`: the text before the first separator and the text after it. -/
def splitOnce (sep : Char) : List Char → Option (List Char × List Char)
  | [] => none
  | c :: cs => if c = sep then some ([], cs) else (splitOnce sep cs).map fun (a, b) => (c :: a, b)

/-- `str::lines`: a line ends at a line feed, which goes with a carriage return before it; what stands after the last
line feed is a line of its own, as it is, unless it is empty. -/
def lines (cs : List Char) : List (List Char) :=
  let parts := cs.splitOn '\n'
  (parts.dropLast.map fun line => if line.getLast? = some '\r' then line.dropLast else line) ++
    parts.getLast?.toList.filter (· ≠ [])

/-! ## Reading texts back -/

theorem splitOnce_append {sep : Char} {x y : List Char} (h : sep ∉ x) :
    splitOnce sep (x ++ sep :: y) = some (x, y) := by
  induction x with
  | nil => simp [splitOnce]
  | cons c x ih =>
    rw [List.mem_cons, not_or] at h
    rw [List.cons_append, splitOnce, if_neg fun heq => h.1 heq.symm, ih h.2]
    rfl

/-- A text is determined by what stands before and after its first separator. -/
theorem sep_inj {α : Type} {c : α} {x z y w : List α} (hx : c ∉ x) (hz : c ∉ z) (h : x ++ c :: y = z ++ c :: w) :
    x = z ∧ y = w := by
  induction x generalizing z with
  | nil =>
    cases z with
    | nil => exact ⟨rfl, (List.cons.inj h).2⟩
    | cons a z => exact absurd ((List.cons.inj h).1 ▸ List.mem_cons_self) hz
  | cons a x ih =>
    cases z with
    | nil => exact absurd ((List.cons.inj h).1 ▸ List.mem_cons_self) hx
    | cons b z =>
      obtain ⟨rfl, h'⟩ := List.cons.inj h
      have hx' : c ∉ x := fun hc => hx (List.mem_cons_of_mem _ hc)
      have hz' : c ∉ z := fun hc => hz (List.mem_cons_of_mem _ hc)
      obtain ⟨rfl, rfl⟩ := ih hx' hz' h'
      exact ⟨rfl, rfl⟩

/-- Likewise at its last separator. -/
theorem sep_inj_last {α : Type} {c : α} {x z y w : List α} (hy : c ∉ y) (hw : c ∉ w) (h : x ++ c :: y = z ++ c :: w) :
    x = z ∧ y = w := by
  have hr : y.reverse ++ c :: x.reverse = w.reverse ++ c :: z.reverse := by
    simpa using congrArg List.reverse h
  obtain ⟨h1, h2⟩ := sep_inj (by simpa using hy) (by simpa using hw) hr
  exact ⟨List.reverse_injective h2, List.reverse_injective h1⟩

/-! ## Trimming -/

/-- `t` is `s` less the white space around it. -/
structure Trimmed (s t : List Char) : Prop where
  around : ∃ before after, s = before ++ t ++ after ∧ ∀ c ∈ before ++ after, isWhitespace c = true
  head : ∀ c ∈ t.head?, isWhitespace c = false
  last : ∀ c ∈ t.getLast?, isWhitespace c = false

/-- `trim_start` takes white space off and stops where there is none. -/
theorem dropWhile_split (s : List Char) : ∃ before, s = before ++ s.dropWhile isWhitespace ∧
    (∀ c ∈ before, isWhitespace c = true) ∧ ∀ c ∈ (s.dropWhile isWhitespace).head?, isWhitespace c = false := by
  refine ⟨s.takeWhile isWhitespace, List.takeWhile_append_dropWhile.symm, fun c hc => ?_, fun c hc => ?_⟩
  · exact List.all_eq_true.1 List.all_takeWhile c hc
  · have h := List.head?_dropWhile_not isWhitespace s
    simpa [Option.mem_def.1 hc] using h

theorem dropWhile_append_stop {before t : List Char} (hb : ∀ c ∈ before, isWhitespace c = true)
    (ht : ∀ c ∈ t.head?, isWhitespace c = false) : (before ++ t).dropWhile isWhitespace = t := by
  rw [List.dropWhile_append_of_pos hb]
  cases t with
  | nil => rfl
  | cons c t => exact List.dropWhile_cons_of_neg (by simp [ht c rfl])

theorem trim_trimmed (s : List Char) : Trimmed s (trim s) := by
  obtain ⟨before, hs, hbefore, hhead⟩ := dropWhile_split s
  obtain ⟨after, hr, hafter, hlast⟩ := dropWhile_split (s.dropWhile isWhitespace).reverse
  have hstart : s.dropWhile isWhitespace = trim s ++ after.reverse := by
    rw [trim, ← List.reverse_append, ← hr, List.reverse_reverse]
  refine ⟨⟨before, after.reverse, ?_, fun c hc => ?_⟩, fun c hc => hhead c ?_, fun c hc => hlast c ?_⟩
  · rw [List.append_assoc, ← hstart, ← hs]
  · rcases List.mem_append.1 hc with hc | hc
    · exact hbefore c hc
    · exact hafter c (List.mem_reverse.1 hc)
  · rw [hstart, List.head?_append, Option.mem_def.1 hc]
    rfl
  · rwa [trim, List.getLast?_reverse] at hc

/-- `str::trim` takes off exactly the white space around a text. -/
theorem trim_eq_iff {s t : List Char} : trim s = t ↔ Trimmed s t := by
  refine ⟨fun h => h ▸ trim_trimmed s, fun h => ?_⟩
  obtain ⟨before, after, rfl, hw⟩ := h.around
  have hb : ∀ c ∈ before, isWhitespace c = true := fun c hc => hw c (List.mem_append_left _ hc)
  have ha : ∀ c ∈ after.reverse, isWhitespace c = true := fun c hc =>
    hw c (List.mem_append_right _ (List.mem_reverse.1 hc))
  have hlast : ∀ c ∈ t.reverse.head?, isWhitespace c = false := by simpa [List.head?_reverse] using h.last
  unfold trim
  cases t with
  | nil =>
    have hall : ∀ c ∈ before ++ [] ++ after, isWhitespace c = true := by simpa using hw
    have hnil : (before ++ [] ++ after).dropWhile isWhitespace = [] := by
      simpa using dropWhile_append_stop (t := []) hall (by simp)
    rw [hnil]
    rfl
  | cons c t =>
    rw [List.append_assoc, dropWhile_append_stop hb (by simpa using h.head c rfl), List.reverse_append,
      dropWhile_append_stop ha hlast, List.reverse_reverse]

theorem trim_eq_self {cs : List Char} (h : ∀ c ∈ cs, isWhitespace c = false) : trim cs = cs :=
  trim_eq_iff.2 ⟨⟨[], [], by simp, by simp⟩, fun c hc => h c (List.mem_of_mem_head? hc),
    fun c hc => h c (List.mem_of_getLast? hc)⟩

/-! ## Texts of parts between separators -/

/-- One or more parts that meet `P`, with one `sep` between each two. -/
inductive Separated {α : Type} (sep : α) (P : List α → Prop) : List α → Prop
  | one {part : List α} : P part → Separated sep P part
  | more {part rest : List α} : P part → Separated sep P rest → Separated sep P (part ++ sep :: rest)

theorem Separated.mem {α : Type} {sep c : α} {P : List α → Prop} {cs : List α} (h : Separated sep P cs) (hc : c ∈ cs) :
    c = sep ∨ ∃ part, P part ∧ c ∈ part := by
  induction h with
  | one hpart => exact .inr ⟨_, hpart, hc⟩
  | more hpart _ ih =>
    rcases List.mem_append.1 hc with hc | hc
    · exact .inr ⟨_, hpart, hc⟩
    · rcases List.mem_cons.1 hc with rfl | hc
      · exact .inl rfl
      · exact ih hc

theorem Separated.intercalate {α : Type} {sep : α} {P : List α → Prop} {parts : List (List α)} (hne : parts ≠ [])
    (h : ∀ part ∈ parts, P part) : Separated sep P ([sep].intercalate parts) := by
  induction parts with
  | nil => exact absurd rfl hne
  | cons part parts ih =>
    have hpart : P part := h part List.mem_cons_self
    cases parts with
    | nil => simpa using Separated.one hpart
    | cons next parts =>
      have hrest : Separated sep P ([sep].intercalate (next :: parts)) :=
        ih (by simp) fun p hp => h p (List.mem_cons_of_mem _ hp)
      simpa [List.intercalate_cons_cons] using Separated.more hpart hrest

/-- Splitting at the separators checks the parts: a part holds no separator. -/
theorem separated_iff {α : Type} [BEq α] [LawfulBEq α] {sep : α} {P : List α → Prop} (hP : ∀ part, P part → sep ∉ part)
    {cs : List α} : Separated sep P cs ↔ ∀ part ∈ cs.splitOn sep, P part := by
  constructor
  · intro h
    induction h with
    | one hpart => simpa [List.splitOn_eq_singleton (hP _ hpart)] using hpart
    | more hpart _ ih =>
      rw [List.splitOn_append_cons_self_of_not_mem (hP _ hpart)]
      exact List.forall_mem_cons.2 ⟨hpart, ih⟩
  · intro h
    have hsep : Separated sep P ([sep].intercalate (cs.splitOn sep)) :=
      Separated.intercalate (List.splitOn_ne_nil sep cs) h
    rwa [List.intercalate_splitOn] at hsep

/-! ## Lengths and numerals -/

theorem utf8Len_pos {cs : List Char} : 1 ≤ utf8Len cs ↔ cs ≠ [] := by
  cases cs with
  | nil => simp [utf8Len]
  | cons c cs =>
    have hc : 0 < c.utf8Size := Char.utf8Size_pos c
    simp only [utf8Len, List.map_cons, List.sum_cons, ne_eq, reduceCtorEq, not_false_eq_true, iff_true]
    omega

/-- A text of one-byte characters is as long as it has characters. -/
theorem utf8Len_eq_length {cs : List Char} (h : ∀ c ∈ cs, c.utf8Size = 1) : utf8Len cs = cs.length := by
  induction cs with
  | nil => rfl
  | cons c cs ih =>
    have hc : c.utf8Size = 1 := h c List.mem_cons_self
    have hcs : utf8Len cs = cs.length := ih fun d hd => h d (List.mem_cons_of_mem _ hd)
    unfold utf8Len at *
    rw [List.map_cons, List.sum_cons, hc, hcs, List.length_cons, Nat.add_comm]

theorem toString_toList (n : Nat) : (toString n).toList = Nat.toDigits 10 n := by
  simp [toString]

theorem isDigit_of_mem_toString {n : Nat} {c : Char} (h : c ∈ (toString n).toList) : c.isDigit := by
  rw [toString_toList] at h
  exact Nat.isDigit_of_mem_toDigits (by decide) (by decide) h

theorem toString_nat_inj {n m : Nat} (h : (toString n).toList = (toString m).toList) : n = m := by
  rw [toString_toList, toString_toList] at h
  rw [← Nat.ofDigitChars_ten_toDigits (n := n), h, Nat.ofDigitChars_ten_toDigits]

/-! ## Order -/

/-- Sorting by distinct keys orders them strictly. -/
theorem mergeSort_keys {α : Type} (key : α → String) {l : List α} (hd : (l.map key).Nodup) :
    ((l.mergeSort fun x y => decide (key x ≤ key y)).map key).Pairwise (· < ·) := by
  have hle : (l.mergeSort fun x y => decide (key x ≤ key y)).Pairwise fun x y => key x ≤ key y := by
    refine (List.pairwise_mergeSort (fun a b c hab hbc => ?_) (fun a b => ?_) l).imp of_decide_eq_true
    · exact decide_eq_true (String.le_trans (of_decide_eq_true hab) (of_decide_eq_true hbc))
    · simpa using String.le_total (key a) (key b)
  have hne := List.pairwise_map.1 (((List.mergeSort_perm l fun x y => decide (key x ≤ key y)).map key).nodup_iff.2 hd)
  refine List.pairwise_map.2 ((hle.and hne).imp fun {x y} ⟨h, hn⟩ => ?_)
  by_contra hlt
  exact hn (String.le_antisymm h (String.not_lt.1 hlt))

end Text
