import Calculator.Proofs.Access.Slice
import Calculator.Proofs.Text.Trimming
import Calculator.Proofs.Token.NormalForm

/-!
# Scanning by byte indices

A scanner keeps a byte index into its text and cuts every token out by its number of bytes.  The
index is always the end of a stretch of characters, and each step by single bytes is over
characters of one byte: a point, the mark and the sign of an exponent, the two characters that
announce a radix.  So every cut is in range, and the tokens are those that are scanned
character by character.
-/

namespace Calculator
namespace Access

open Token

/-! ## The scanner -/

/-- The number of bytes from an index on whose characters all pass a test. -/
def count? (text : String) (i : Nat) (p : Char → Bool) : Option Nat :=
  (from? text i).map fun rest => bytes (rest.toList.takeWhile p)

/-- Whether the first character of a text passes a test. -/
def startsWith (text : String) (p : Char → Bool) : Bool :=
  text.toList.head?.any p

/-- What announces the digits of another radix. -/
def radixMarks : List String :=
  ["0x", "0X", "0o", "0O", "0b", "0B"]

def announcesRadix (text : String) : Bool :=
  radixMarks.any fun mark => mark.toList.isPrefixOf text.toList

/-- The number of bytes of the exponent that starts a text, if one does. -/
def exponentSize? (text : String) : Option Nat :=
  if startsWith text fun c => c == 'e' || c == 'E' then do
    let behindMark ← from? text 1
    let sign := if startsWith behindMark fun c => c == '+' || c == '-' then 1 else 0
    let behindSign ← from? text (1 + sign)
    let digits := (behindSign.toList.takeWhile Char.isDigit).length
    some (if 0 < digits then 1 + sign + digits else 0)
  else some 0

/-- The number literal at an index. -/
def number? (text : String) (i : Nat) : Option String := do
  let view ← from? text i
  if announcesRadix view then
    let digits ← count? text (i + 2) isNameChar
    upTo? view (2 + digits)
  else
    let plain ← count? text i isDigitOrPoint
    let exponent ← from? view plain >>= exponentSize?
    upTo? view (plain + exponent)

/-- The name at an index. -/
def name? (text : String) (i : Nat) : Option String := do
  let size ← count? text i isNameChar
  upTo? (← from? text i) size

/-- The operator at an index. -/
def operator? (text : String) (i : Nat) : Option String := do
  let view ← from? text i
  if ['*', '*'].isPrefixOf view.toList then some "**" else upTo? view 1

/-- Whether a number literal starts a text. -/
def isNumber? (text : String) : Option Bool :=
  if startsWith text Char.isDigit then some true
  else if startsWith text (· == '.') then
    (from? text 1).map fun rest => startsWith rest Char.isDigit
  else some false

def isOperatorChar (c : Char) : Bool :=
  "+-*/^%".toList.contains c

def isPunctuation (c : Char) : Bool :=
  "(),".toList.contains c

/-- The mark that is spelled by a text. -/
def punctuation? (text : String) : Option Token :=
  [openParen, closeParen, comma].find? (·.content == text)

/-- The token at an index, if the text does not end there, or the character that starts none. -/
def token? (text : String) (i : Nat) : Option (Except Char (Option Token)) := do
  let view ← from? text i
  match view.toList with
  | [] => some (.ok none)
  | c :: _ =>
    if ← isNumber? view then (number? text i).map fun s => .ok (some (.number s))
    else if isNameStart c then (name? text i).map fun s => .ok (some (.identifier s))
    else if isOperatorChar c then
      (operator? text i >>= OperatorSymbol.ofText?).map fun op => .ok (some (.operator op))
    else if isPunctuation c then (upTo? view 1 >>= punctuation?).map fun t => .ok (some t)
    else some (.error c)

/-- The next token behind blanks, with the index behind it. -/
def advance? (text : String) (i : Nat) : Option (Except Char (Option (Token × Nat))) := do
  let blanks ← count? text i Text.isBlank
  let found ← token? text (i + blanks)
  some (found.map (·.map fun t => (t, i + blanks + t.content.utf8ByteSize)))

/-- The tokens from an index on.  There are none either if a step does not move on in the
text. -/
def scanFrom? (text : String) (i : Nat) : Option Scanned :=
  match advance? text i with
  | none => none
  | some (.error c) => some ⟨[], some c⟩
  | some (.ok none) => some ⟨[], none⟩
  | some (.ok (some (t, j))) =>
    if i < j ∧ j ≤ text.utf8ByteSize then
      (scanFrom? text j).map fun rest => ⟨t :: rest.tokens, rest.stopped⟩
    else none
termination_by text.utf8ByteSize - i

/-- The tokens of a text. -/
def scan? (text : String) : Option Scanned :=
  scanFrom? text 0

/-! ## Cuts in range -/

section Front

variable {front back : List Char} {i : Nat} (hi : bytes front = i)

include hi

theorem count?_eq (p : Char → Bool) :
    count? (String.ofList (front ++ back)) i p = some (bytes (back.takeWhile p)) := by
  rw [count?, from?_eq_some hi, Option.map_some, String.toList_ofList]

theorem name?_eq :
    name? (String.ofList (front ++ back)) i =
      some (String.ofList (back.takeWhile isNameChar)) := by
  rw [name?, count?_eq hi, from?_eq_some hi]
  change upTo? (String.ofList back) _ = _
  nth_rewrite 1 [← List.takeWhile_append_dropWhile (p := isNameChar) (l := back)]
  exact upTo?_eq_some rfl

end Front

theorem startsWith_ofList (c : Char) (cs : List Char) (p : Char → Bool) :
    startsWith (String.ofList (c :: cs)) p = p c := by
  rw [startsWith, String.toList_ofList]
  rfl

theorem startsWith_nil (p : Char → Bool) : startsWith (String.ofList []) p = false := by
  rw [startsWith, String.toList_ofList]
  rfl

/-- One byte leads past a character of one byte. -/
theorem from?_one {c : Char} (hc : bytes [c] = 1) (cs : List Char) :
    from? (String.ofList (c :: cs)) 1 = some (String.ofList cs) :=
  from?_eq_some hc

theorem upTo?_one {c : Char} (hc : bytes [c] = 1) (cs : List Char) :
    upTo? (String.ofList (c :: cs)) 1 = some (String.ofList [c]) :=
  upTo?_eq_some hc

/-! ## Number literals -/

theorem announcesRadix_iff {cs : List Char} :
    announcesRadix (String.ofList cs) = true ↔
      ∃ letter rest, cs = '0' :: letter :: rest ∧ isRadixLetter letter = true := by
  rw [announcesRadix, String.toList_ofList]
  match cs with
  | [] => simp [radixMarks]
  | [a] => simp [radixMarks]
  | a :: b :: rest =>
      simp only [radixMarks, isRadixLetter, List.any_cons, List.any_nil, String.reduceToList,
        List.isPrefixOf_iff_prefix, List.cons_prefix_cons, List.nil_prefix, List.cons.injEq,
        Bool.or_false, Bool.or_eq_true, beq_iff_eq, and_true]
      grind

theorem utf8Size_of_isRadixLetter {c : Char} (h : isRadixLetter c = true) : c.utf8Size = 1 := by
  simp only [isRadixLetter, Bool.or_eq_true, beq_iff_eq] at h
  rcases h with ((((rfl | rfl) | rfl) | rfl) | rfl) | rfl <;> rfl

theorem utf8Size_of_isDigit {c : Char} (h : c.isDigit = true) : c.utf8Size = 1 := by
  simp only [Char.isDigit, Bool.and_eq_true, decide_eq_true_eq] at h
  rw [Char.utf8Size_eq_one_iff]
  exact UInt32.le_trans h.2 (by decide)

theorem bytes_takeWhile_isDigit (cs : List Char) :
    bytes (cs.takeWhile Char.isDigit) = (cs.takeWhile Char.isDigit).length :=
  bytes_eq_length fun _ hc => utf8Size_of_isDigit (List.mem_takeWhile_imp hc)

/-- An exponent takes up its marks and its digits, where it has digits. -/
theorem bytes_exponent {marks : List Char} {size : Nat} (hsize : bytes marks = size)
    (cs : List Char) :
    bytes (if (cs.takeWhile Char.isDigit).isEmpty then [] else marks ++ cs.takeWhile Char.isDigit) =
      if 0 < (cs.takeWhile Char.isDigit).length then size + (cs.takeWhile Char.isDigit).length
      else 0 := by
  have hdigits := bytes_takeWhile_isDigit cs
  cases hrun : cs.takeWhile Char.isDigit with
  | nil => rfl
  | cons d ds =>
      rw [List.isEmpty_cons, if_neg Bool.false_ne_true, List.length_cons,
        if_pos (Nat.succ_pos _), bytes_append, hsize, ← hrun, hdigits, hrun, List.length_cons]

theorem exponentSize?_eq (cs : List Char) :
    exponentSize? (String.ofList cs) = some (bytes (exponentPart cs)) := by
  cases cs with
  | nil =>
      rw [exponentSize?, startsWith_nil]
      rfl
  | cons mark cs =>
      rw [exponentSize?, startsWith_ofList, exponentPart.eq_def]
      dsimp only
      by_cases hmark : (mark == 'e' || mark == 'E') = true
      · have hone : bytes [mark] = 1 := by
          simp only [Bool.or_eq_true, beq_iff_eq] at hmark
          rcases hmark with rfl | rfl <;> rfl
        rw [if_pos hmark, if_pos hmark, from?_one hone, Option.bind_eq_bind, Option.bind_some]
        cases cs with
        | nil =>
            rw [startsWith_nil, if_neg Bool.false_ne_true, Nat.add_zero, from?_one hone]
            rfl
        | cons sign digits =>
            rw [startsWith_ofList]
            dsimp only
            by_cases hsign : (sign == '+' || sign == '-') = true
            · have hsecond : bytes [sign] = 1 := by
                simp only [Bool.or_eq_true, beq_iff_eq] at hsign
                rcases hsign with rfl | rfl <;> rfl
              have hmarks : bytes ([mark] ++ [sign]) = 1 + 1 := by
                rw [bytes_append, hone, hsecond]
              have hbehind : from? (String.ofList (mark :: sign :: digits)) (1 + 1) =
                  some (String.ofList digits) := from?_eq_some hmarks
              rw [if_pos hsign, if_pos hsign, hbehind, Option.bind_some, String.toList_ofList]
              exact congrArg some (bytes_exponent hmarks digits).symm
            · rw [if_neg hsign, if_neg hsign, Nat.add_zero, from?_one hone, Option.bind_some,
                String.toList_ofList]
              exact congrArg some (bytes_exponent hone (sign :: digits)).symm
      · rw [if_neg hmark, if_neg hmark]
        rfl

section Number

variable {front back : List Char} {i : Nat} (hi : bytes front = i)

include hi

theorem number?_of_radix (hradix : announcesRadix (String.ofList back) = true) :
    number? (String.ofList (front ++ back)) i = some (String.ofList (numberPart back)) := by
  obtain ⟨letter, rest, rfl, hletter⟩ := announcesRadix_iff.mp hradix
  have hmark : bytes ['0', letter] = 2 := by
    rw [bytes_cons, bytes_cons, utf8Size_of_isRadixLetter hletter]
    rfl
  have hdigits : count? (String.ofList (front ++ '0' :: letter :: rest)) (i + 2) isNameChar =
      some (bytes (rest.takeWhile isNameChar)) := by
    have hfront : bytes (front ++ ['0', letter]) = i + 2 := by rw [bytes_append, hi, hmark]
    have hcount := @count?_eq _ rest _ hfront isNameChar
    rwa [List.append_assoc] at hcount
  have hcut : '0' :: letter :: rest =
      ('0' :: letter :: rest.takeWhile isNameChar) ++ rest.dropWhile isNameChar := by
    rw [List.cons_append, List.cons_append, List.takeWhile_append_dropWhile]
  have hpart : numberPart ('0' :: letter :: rest) = '0' :: letter :: rest.takeWhile isNameChar := by
    rw [numberPart, if_pos hletter]
  rw [number?, from?_eq_some hi, hdigits, hpart]
  change (if announcesRadix _ = true then upTo? _ _ else _) = _
  rw [if_pos hradix]
  nth_rewrite 1 [hcut]
  refine upTo?_eq_some ?_
  change bytes (['0', letter] ++ rest.takeWhile isNameChar) = _
  rw [bytes_append, hmark]

/-- Behind the digits and points of a literal without a radix an exponent may follow. -/
theorem number?_of_plain (hplain : announcesRadix (String.ofList back) = false) :
    number? (String.ofList (front ++ back)) i = some (String.ofList (numberPart.plain back)) := by
  rw [number?, from?_eq_some hi, count?_eq hi]
  change (if announcesRadix _ = true then _
    else (from? (String.ofList back) _ >>= exponentSize?) >>= _) = _
  rw [if_neg (by rw [hplain]; exact Bool.false_ne_true), numberPart.plain]
  have hsplit := (List.takeWhile_append_dropWhile (p := isDigitOrPoint) (l := back)).symm
  generalize back.takeWhile isDigitOrPoint = run at hsplit ⊢
  generalize back.dropWhile isDigitOrPoint = rest at hsplit ⊢
  subst hsplit
  obtain ⟨tail, htail⟩ := exponentPart_prefix rest
  rw [from?_eq_some rfl]
  change (exponentSize? (String.ofList rest)).bind _ = _
  rw [exponentSize?_eq]
  change upTo? (String.ofList (run ++ rest)) (bytes run + bytes (exponentPart rest)) = _
  nth_rewrite 1 [← htail]
  rw [← List.append_assoc]
  exact upTo?_eq_some (bytes_append _ _)

theorem number?_eq :
    number? (String.ofList (front ++ back)) i = some (String.ofList (numberPart back)) := by
  by_cases hradix : announcesRadix (String.ofList back) = true
  · exact number?_of_radix hi hradix
  · rw [number?_of_plain hi (eq_false_of_ne_true hradix), numberPart_eq_plain]
    rintro letter rest rfl
    by_contra hletter
    exact hradix (announcesRadix_iff.mpr
      ⟨letter, rest, rfl, eq_true_of_ne_false hletter⟩)

end Number

/-! ## Tokens -/

theorem isNumber?_eq (c : Char) (cs : List Char) :
    isNumber? (String.ofList (c :: cs)) = some (startsNumber c cs) := by
  rw [isNumber?, startsWith_ofList, startsWith_ofList, startsNumber]
  by_cases hdigit : c.isDigit = true
  · rw [if_pos hdigit, hdigit, Bool.true_or]
  · rw [if_neg hdigit, eq_false_of_ne_true hdigit, Bool.false_or]
    by_cases hpoint : (c == '.') = true
    · have hsize : c.utf8Size = 1 := by
        rw [eq_of_beq hpoint]
        rfl
      rw [if_pos hpoint, from?_one hsize, Option.map_some, startsWith, String.toList_ofList,
        hpoint, Bool.true_and]
    · rw [if_neg hpoint, eq_false_of_ne_true hpoint, Bool.false_and]

section Token

variable {front cs : List Char} {c : Char} {i : Nat} (hi : bytes front = i)

include hi

theorem operator?_of_ne (hc : c ≠ '*') (hsize : c.utf8Size = 1) :
    operator? (String.ofList (front ++ c :: cs)) i = some (String.ofList [c]) := by
  have hstar : ['*', '*'].isPrefixOf (c :: cs) = false :=
    Bool.and_eq_false_imp.mpr fun h => absurd (eq_of_beq h).symm hc
  rw [operator?, from?_eq_some hi]
  change (if ['*', '*'].isPrefixOf (String.ofList _).toList = true then _ else upTo? _ 1) = _
  rw [String.toList_ofList, hstar, if_neg Bool.false_ne_true, upTo?_one hsize]

/-- A star is taken together with a second one. -/
theorem operator?_star :
    operator? (String.ofList (front ++ '*' :: cs)) i =
      some (if cs.head? = some '*' then "**" else "*") := by
  rw [operator?, from?_eq_some hi]
  change (if ['*', '*'].isPrefixOf (String.ofList _).toList = true then _ else upTo? _ 1) = _
  rw [String.toList_ofList, upTo?_one rfl]
  cases cs with
  | nil => rfl
  | cons d ds =>
      by_cases hd : d = '*'
      · subst hd
        rfl
      · have hstar : ['*', '*'].isPrefixOf ('*' :: d :: ds) = false :=
          Bool.and_eq_false_imp.mpr fun _ =>
            Bool.and_eq_false_imp.mpr fun h => absurd (eq_of_beq h).symm hd
        rw [hstar, if_neg Bool.false_ne_true, List.head?_cons, if_neg (by simpa using hd)]

theorem exists_operator (cs : List Char) (hop : isOperatorChar c = true) :
    ∃ op, (operator? (String.ofList (front ++ c :: cs)) i >>= OperatorSymbol.ofText?) = some op ∧
      first? c cs = some (operator op) := by
  have hmem : c ∈ ['+', '-', '*', '/', '^', '%'] := List.contains_iff_mem.mp hop
  simp only [List.mem_cons, List.not_mem_nil, or_false] at hmem
  rcases hmem with rfl | rfl | rfl | rfl | rfl | rfl
  case inr.inr.inl =>
    rw [operator?_star hi]
    change ∃ op, _ ∧ (if cs.head? = some '*' then some (operator .starStar)
      else some (operator .star)) = _
    split_ifs
    · exact ⟨.starStar, rfl, rfl⟩
    · exact ⟨.star, rfl, rfl⟩
  all_goals
    rw [operator?_of_ne hi (by decide) rfl]
    exact ⟨_, rfl, rfl⟩

end Token

theorem exists_punctuation {c : Char} (cs : List Char) (hmark : isPunctuation c = true) :
    ∃ t, (upTo? (String.ofList (c :: cs)) 1 >>= punctuation?) = some t ∧
      first? c cs = some t := by
  have hmem : c ∈ ['(', ')', ','] := List.contains_iff_mem.mp hmark
  simp only [List.mem_cons, List.not_mem_nil, or_false] at hmem
  rcases hmem with rfl | rfl | rfl
  all_goals
    rw [upTo?_one rfl]
    exact ⟨_, rfl, rfl⟩

theorem first?_eq_none {c : Char} {cs : List Char} (hnumber : startsNumber c cs = false)
    (hname : isNameStart c = false) (hop : isOperatorChar c = false)
    (hmark : isPunctuation c = false) : first? c cs = none := by
  unfold first?
  rw [hnumber, hname, if_neg Bool.false_ne_true, if_neg Bool.false_ne_true]
  split
  case h_10 => rfl
  all_goals first | exact absurd hop (by decide) | exact absurd hmark (by decide)

section Step

variable {front : List Char} {i : Nat} (hi : bytes front = i)

include hi

/-- What is found at an index is what the text starts with there. -/
theorem token?_eq (c : Char) (cs : List Char) :
    token? (String.ofList (front ++ c :: cs)) i =
      some (match first? c cs with
        | some t => .ok (some t)
        | none => .error c) := by
  have hview : token? (String.ofList (front ++ c :: cs)) i =
      if startsNumber c cs = true then
        (number? (String.ofList (front ++ c :: cs)) i).map fun s => .ok (some (.number s))
      else if isNameStart c = true then
        (name? (String.ofList (front ++ c :: cs)) i).map fun s => .ok (some (.identifier s))
      else if isOperatorChar c = true then
        (operator? (String.ofList (front ++ c :: cs)) i >>= OperatorSymbol.ofText?).map
          fun op => .ok (some (.operator op))
      else if isPunctuation c = true then
        (upTo? (String.ofList (c :: cs)) 1 >>= punctuation?).map fun t => .ok (some t)
      else some (.error c) := by
    rw [token?, from?_eq_some hi]
    change (match (String.ofList (c :: cs)).toList with
      | [] => _
      | c' :: _ => isNumber? (String.ofList (c :: cs)) >>= _) = _
    rw [String.toList_ofList, isNumber?_eq]
    rfl
  rw [hview]
  split_ifs with hnumber hname hop hmark
  · unfold first?
    rw [number?_eq hi, if_pos hnumber]
    rfl
  · unfold first?
    rw [name?_eq hi, if_neg hnumber, if_pos hname]
    rfl
  · obtain ⟨op, hread, hfirst⟩ := exists_operator hi cs hop
    rw [hread, hfirst]
    rfl
  · obtain ⟨t, hread, hfirst⟩ := exists_punctuation cs hmark
    rw [hread, hfirst]
    rfl
  · rw [first?_eq_none (eq_false_of_ne_true hnumber) (eq_false_of_ne_true hname)
      (eq_false_of_ne_true hop) (eq_false_of_ne_true hmark)]

theorem token?_of_end : token? (String.ofList (front ++ [])) i = some (.ok none) := by
  rw [token?, from?_eq_some hi]
  rfl

/-- Blanks are passed over, and the index moves to the end of the token. -/
theorem advance?_eq (back : List Char) :
    advance? (String.ofList (front ++ back)) i =
      some (match Text.trimStart back with
        | [] => .ok none
        | c :: cs =>
          match first? c cs with
          | some t =>
            .ok (some (t, bytes (front ++ back.takeWhile Text.isBlank ++ t.content.toList)))
          | none => .error c) := by
  have hsplit := (Text.trimStart_append back).symm
  rw [advance?, count?_eq hi]
  generalize back.takeWhile Text.isBlank = blanks at hsplit ⊢
  generalize Text.trimStart back = rest at hsplit ⊢
  subst hsplit
  have hend : bytes (front ++ blanks) = i + bytes blanks := by rw [bytes_append, hi]
  change (token? (String.ofList (front ++ (blanks ++ rest))) (i + bytes blanks) >>= _) = _
  rw [← List.append_assoc]
  cases rest with
  | nil =>
      rw [token?_of_end hend]
      rfl
  | cons c cs =>
      rw [token?_eq hend]
      dsimp only
      cases first? c cs with
      | none => rfl
      | some t =>
          have hnext : bytes (front ++ blanks ++ t.content.toList) =
              i + bytes blanks + t.content.utf8ByteSize := by
            rw [bytes_append, hend, bytes_toList]
          dsimp only
          rw [hnext]
          rfl

end Step

/-- Scanning from an index gives the tokens of what the text holds from there on. -/
theorem scanFrom?_eq {front : List Char} {i : Nat} (hi : bytes front = i) (back : List Char) :
    scanFrom? (String.ofList (front ++ back)) i = some (scan back) := by
  induction hlength : back.length using Nat.strongRecOn generalizing front back i with
  | ind length ih =>
    have hsplit := (Text.trimStart_append back).symm
    have hblanks : ∀ c ∈ back.takeWhile Text.isBlank, Text.isBlank c = true :=
      fun c hc => Text.isBlank_of_mem_takeWhile hc
    have hhead : ∀ c, (Text.trimStart back).head? = some c → Text.isBlank c = false :=
      fun c hc => Text.isBlank_head_trimStart hc
    rw [scanFrom?, advance?_eq hi]
    generalize back.takeWhile Text.isBlank = blanks at hsplit hblanks ⊢
    generalize Text.trimStart back = rest at hsplit hhead ⊢
    subst hsplit
    rw [scan_append_of_blanks hblanks]
    cases rest with
    | nil => rw [scan_nil]
    | cons c cs =>
        unfold scan
        rw [hhead c rfl, if_neg Bool.false_ne_true]
        dsimp only
        cases hfirst : first? c cs with
        | none => rfl
        | some t =>
            have hcut := content_append_drop hfirst
            have hpos := bytes_pos (content_ne_nil hfirst)
            have htext : front ++ (blanks ++ c :: cs) =
                (front ++ blanks ++ t.content.toList) ++ cs.drop (t.width - 1) := by
              rw [List.append_assoc, List.append_assoc, hcut]
            have hshorter : (cs.drop (t.width - 1)).length < length := by
              rw [← hlength, List.length_append, List.length_cons, List.length_drop]
              omega
            have hmoves : i < bytes (front ++ blanks ++ t.content.toList) ∧
                bytes (front ++ blanks ++ t.content.toList) ≤
                  (String.ofList (front ++ (blanks ++ c :: cs))).utf8ByteSize := by
              rw [htext, utf8ByteSize_ofList, bytes_append _ (cs.drop _), bytes_append,
                bytes_append, hi]
              omega
            dsimp only
            rw [if_pos hmoves, htext, ih _ hshorter rfl _ rfl]
            rfl

/-- Every cut of the scanner is in range, and it moves on until the text ends or a character
starts no token. -/
theorem scan?_eq (text : String) : scan? text = some (scan text.toList) := by
  have hscan := scanFrom?_eq bytes_nil text.toList
  rwa [List.nil_append, String.ofList_toList] at hscan

end Access
end Calculator
