import Gasoline.ApiServer

/-!
# What the control API sends

A response of the API server is a message that any HTTP reader takes apart in
the same way: its head ends with the first empty line, and the header field
`Content-Length` announces the number of bytes that follow
(`Response.isHead_head`, `Response.announced_head`). This is so for every
status text and content type without a carriage return, and for every body,
also one that looks like headers.
-/

namespace Gasoline

namespace ApiServer

/-! ## Numbers in decimal -/

theorem toNat_of_mem_toDigits {n : ℕ} {c : Char} (hc : c ∈ Nat.toDigits 10 n) :
    48 ≤ c.toNat ∧ c.toNat ≤ 57 := by
  have hdigit := Nat.isDigit_of_mem_toDigits (by decide) (by decide) hc
  simp only [Char.isDigit, Bool.and_eq_true, decide_eq_true_eq] at hdigit
  exact ⟨UInt32.le_iff_toNat_le.mp hdigit.1, UInt32.le_iff_toNat_le.mp hdigit.2⟩

theorem toNat_ofNat_of_mem {n : ℕ} {c : Char} (hc : c ∈ Nat.toDigits 10 n) :
    (UInt8.ofNat c.toNat).toNat = c.toNat := by
  obtain ⟨-, hhigh⟩ := toNat_of_mem_toDigits hc
  exact UInt8.toNat_ofNat_of_lt' (show c.toNat < 256 by omega)

theorem isDigit_of_mem_toText {n : ℕ} {b : UInt8} (hb : b ∈ toText n) : isDigit b = true := by
  obtain ⟨c, hc, rfl⟩ := List.mem_map.mp hb
  obtain ⟨hlow, hhigh⟩ := toNat_of_mem_toDigits hc
  rw [isDigit, Bool.and_eq_true, decide_eq_true_eq, decide_eq_true_eq, UInt8.le_iff_toNat_le,
    UInt8.le_iff_toNat_le, toNat_ofNat_of_mem hc]
  exact ⟨hlow, hhigh⟩

theorem toText_ne_nil (n : ℕ) : toText n ≠ [] := by
  rw [toText, ne_eq, List.map_eq_nil_iff]
  exact Nat.toDigits_ne_nil

/-- **A number that was written is read.** -/
theorem decimalValue_toText (n : ℕ) : decimalValue (toText n) = n := by
  have hfold : ∀ (l : List Char) (k : ℕ), (∀ c ∈ l, c ∈ Nat.toDigits 10 n) →
      (l.map (fun c => UInt8.ofNat c.toNat)).foldl (fun n b => 10 * n + (b.toNat - 48)) k
        = Nat.ofDigitChars 10 l k := by
    intro l
    induction l with
    | nil => exact fun _ _ => Nat.ofDigitChars_nil.symm
    | cons c l ih =>
      intro k hl
      obtain ⟨hc, hl⟩ := List.forall_mem_cons.mp hl
      rw [List.map_cons, List.foldl_cons, ih _ hl, Nat.ofDigitChars_cons, toNat_ofNat_of_mem hc]
      rfl
  rw [decimalValue, toText, hfold _ 0 (fun c hc => hc)]
  exact Nat.ofDigitChars_ten_toDigits

/-! ## Lines -/

/-- A text without a carriage return is passed over. -/
theorem firstOccurrence_skip {l : Bytes} (hl : 13 ∉ l) (t : Bytes) :
    firstOccurrence emptyLine (l ++ t) = (firstOccurrence emptyLine t).map (· + l.length) := by
  induction l with
  | nil => simp
  | cons b l ih =>
    obtain ⟨hb, hl⟩ := not_or.mp (List.mem_cons.not.mp hl)
    have hhere : ¬ emptyLine <+: b :: (l ++ t) := by
      rintro ⟨rest, hrest⟩
      exact hb (List.cons.inj hrest).1
    rw [List.cons_append, firstOccurrence, if_neg hhere, ih hl, Option.map_map]
    rfl

/-- The lines, each with its end, and an empty one. -/
def headOf (ls : List Bytes) : Bytes := (ls.map (· ++ crlf)).flatten ++ crlf

/-- **Lines that are not empty make a head**: the first empty line is the one
at their end. -/
theorem isHead_headOf {ls : List Bytes} (hne : ls ≠ []) (hls : ∀ l ∈ ls, l ≠ [] ∧ 13 ∉ l) :
    IsHead (headOf ls) := by
  have hfirst : firstOccurrence emptyLine (headOf ls) = some ((headOf ls).length - 4)
      ∧ 4 ≤ (headOf ls).length := by
    induction ls with
    | nil => exact absurd rfl hne
    | cons l ls ih =>
      obtain ⟨⟨-, hreturn⟩, hrest⟩ := List.forall_mem_cons.mp hls
      cases ls with
      | nil =>
        have heq : headOf [l] = l ++ emptyLine := by simp [headOf, crlf, emptyLine]
        rw [heq, firstOccurrence_skip hreturn]
        simp [firstOccurrence, emptyLine]
      | cons l' ls =>
        obtain ⟨ih, hfour⟩ := ih (List.cons_ne_nil _ _) hrest
        have heq : headOf (l :: l' :: ls) = l ++ (13 :: 10 :: headOf (l' :: ls)) := by
          simp [headOf, crlf]
        -- the line behind begins with something else than a carriage return
        obtain ⟨b, t, hb, hhead⟩ : ∃ b t, b ≠ 13 ∧ headOf (l' :: ls) = b :: t := by
          obtain ⟨⟨hl', hreturn'⟩, -⟩ := List.forall_mem_cons.mp hrest
          cases l' with
          | nil => exact absurd rfl hl'
          | cons b l' =>
            refine ⟨b, l' ++ crlf ++ ((ls.map (· ++ crlf)).flatten ++ crlf), ?_, by simp [headOf]⟩
            rintro rfl
            exact hreturn' List.mem_cons_self
        have hskip : firstOccurrence emptyLine (13 :: 10 :: headOf (l' :: ls))
            = (firstOccurrence emptyLine (headOf (l' :: ls))).map (· + 2) := by
          have hfirst : ¬ emptyLine <+: 13 :: 10 :: headOf (l' :: ls) := by
            rw [hhead]
            rintro ⟨rest, hrest⟩
            simp only [emptyLine, List.cons_append, List.cons.injEq] at hrest
            exact hb hrest.2.2.1.symm
          have hsecond : ¬ emptyLine <+: 10 :: headOf (l' :: ls) := by
            rintro ⟨rest, hrest⟩
            simp only [emptyLine, List.cons_append, List.cons.injEq] at hrest
            exact absurd hrest.1 (by decide)
          rw [firstOccurrence, if_neg hfirst, firstOccurrence, if_neg hsecond, Option.map_map]
          rfl
        rw [heq, firstOccurrence_skip hreturn, hskip, ih, Option.map_some, Option.map_some,
          Option.some.injEq]
        simp only [List.length_append, List.length_cons]
        omega
  exact ⟨_, hfirst.1, by omega⟩

theorem lines_append {l : Bytes} (hl : 13 ∉ l) (rest : Bytes) :
    lines (l ++ (crlf ++ rest)) = l :: lines rest := by
  induction l with
  | nil =>
    show lines (13 :: 10 :: rest) = _
    rw [lines, if_pos ⟨rfl, rfl⟩]
  | cons b l ih =>
    obtain ⟨hb, hl⟩ := not_or.mp (List.mem_cons.not.mp hl)
    obtain ⟨c, t, ht⟩ : ∃ c t, l ++ (crlf ++ rest) = c :: t := by
      cases l with
      | nil => exact ⟨13, 10 :: rest, rfl⟩
      | cons c l => exact ⟨c, _, rfl⟩
    have hnext := ih hl
    rw [List.cons_append, ht, lines, if_neg (fun h => hb h.1.symm), ← ht, hnext]

theorem lines_headOf {ls : List Bytes} (hls : ∀ l ∈ ls, 13 ∉ l) :
    lines (headOf ls) = ls ++ [[], []] := by
  induction ls with
  | nil => rfl
  | cons l ls ih =>
    obtain ⟨hl, hls⟩ := List.forall_mem_cons.mp hls
    have heq : headOf (l :: ls) = l ++ (crlf ++ headOf ls) := by simp [headOf]
    rw [heq, lines_append hl, ih hls, List.cons_append]

/-! ## Responses -/

namespace Response

variable {r : Response}

/-- The texts of the response stay within their lines. -/
def OneLine (r : Response) : Prop := 13 ∉ r.statusText ∧ 13 ∉ r.contentType

theorem not_mem_toText (n : ℕ) : 13 ∉ toText n :=
  fun h => absurd (isDigit_of_mem_toText h) (by decide)

theorem headLines_lines (hr : r.OneLine) : ∀ l ∈ r.headLines, l ≠ [] ∧ 13 ∉ l := by
  have hstatus := not_mem_toText r.statusCode
  have hlength := not_mem_toText r.body.length
  simp only [headLines, List.forall_mem_cons, List.mem_append, not_or]
  refine ⟨⟨by simp [ascii], ⟨⟨by decide, hstatus⟩, by decide⟩, hr.1⟩,
    ⟨by simp [ascii], by decide, hr.2⟩, ⟨by simp [ascii], by decide, hlength⟩,
    ⟨by decide, by decide⟩, by simp⟩

/-- **The head of a response ends with its first empty line**, whatever the
body is. -/
theorem isHead_head (hr : r.OneLine) : IsHead r.head :=
  isHead_headOf (by simp [headLines]) (headLines_lines hr)

theorem fieldValue_contentLength (n : ℕ) :
    fieldValue (ascii "Content-Length: " ++ toText n) = toText n := by
  have hdigit : ∀ b ∈ toText n, (b == 32 || b == 9) = false := by
    intro b hb
    have hdigit := isDigit_of_mem_toText hb
    rw [Bool.or_eq_false_iff, beq_eq_false_iff_ne, beq_eq_false_iff_ne]
    constructor
    all_goals
      rintro rfl
      exact absurd hdigit (by decide)
  have hname : ((ascii "Content-Length: " ++ toText n).dropWhile (· != 58)).tail
      = 32 :: toText n := rfl
  have hdrop : ∀ l : Bytes, (∀ b ∈ l, (b == 32 || b == 9) = false) →
      l.dropWhile (fun b => b == 32 || b == 9) = l := by
    intro l hl
    cases l with
    | nil => rfl
    | cons b l => rw [List.dropWhile_cons_of_neg (by simp [hl b List.mem_cons_self])]
  unfold fieldValue
  rw [hname]
  simp only [List.dropWhile_cons, beq_self_eq_true, Bool.true_or, if_true]
  rw [hdrop _ hdigit, hdrop _ (fun b hb => hdigit b (List.mem_reverse.mp hb)), List.reverse_reverse]

/-- **The head announces the length of the body.** -/
theorem announced_head (hr : r.OneLine) : announced r.head = some r.body.length := by
  have hlines : lines r.head = r.headLines ++ [[], []] :=
    lines_headOf (fun l hl => (headLines_lines hr l hl).2)
  have htype : isContentLength (ascii "Content-Type: " ++ r.contentType) = false := by
    have hname : fieldName (ascii "Content-Type: " ++ r.contentType) = ascii "Content-Type" := rfl
    rw [isContentLength, hname]
    simp [ascii, lowerLetter]
  have hlength : isContentLength (ascii "Content-Length: " ++ toText r.body.length) = true := by
    have hname : fieldName (ascii "Content-Length: " ++ toText r.body.length)
        = ascii "Content-Length" := rfl
    rw [isContentLength, hname]
    simp [ascii, lowerLetter]
  have hfind : (lines r.head).tail.find? isContentLength
      = some (ascii "Content-Length: " ++ toText r.body.length) := by
    rw [hlines]
    simp only [headLines, List.cons_append, List.tail_cons]
    rw [List.find?_cons_of_neg (by simp [htype]), List.find?_cons_of_pos hlength]
  unfold announced
  rw [hfind]
  have hall : (toText r.body.length).all isDigit = true :=
    List.all_eq_true.mpr (fun b hb => isDigit_of_mem_toText hb)
  simp only [fieldValue_contentLength, hall, decimalValue_toText]
  simp [toText_ne_nil]

end Response

end ApiServer

end Gasoline
