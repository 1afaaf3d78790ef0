/-!
# Slices of a text

A text is cut at byte indices.  There is no slice where an index is past the end of the text or
inside a character; at the end of a stretch of characters from the front there is one.
-/

namespace Calculator
namespace Access

/-- The text from an index on. -/
def from? (text : String) (i : Nat) : Option String :=
  (text.pos? ⟨i⟩).map fun p => (text.sliceFrom p).copy

/-- The text up to an index. -/
def upTo? (text : String) (i : Nat) : Option String :=
  (text.pos? ⟨i⟩).map fun p => (text.sliceTo p).copy

/-- The number of bytes that characters take up. -/
def bytes : List Char → Nat
  | [] => 0
  | c :: cs => c.utf8Size + bytes cs

@[simp]
theorem bytes_nil : bytes [] = 0 :=
  rfl

@[simp]
theorem bytes_cons (c : Char) (cs : List Char) : bytes (c :: cs) = c.utf8Size + bytes cs :=
  rfl

@[simp]
theorem bytes_append (cs ds : List Char) : bytes (cs ++ ds) = bytes cs + bytes ds := by
  induction cs with
  | nil => rw [List.nil_append, bytes_nil, Nat.zero_add]
  | cons c cs ih => rw [List.cons_append, bytes_cons, bytes_cons, ih, Nat.add_assoc]

theorem utf8ByteSize_ofList (cs : List Char) : (String.ofList cs).utf8ByteSize = bytes cs := by
  induction cs with
  | nil => rfl
  | cons c cs ih =>
      rw [String.ofList_cons, String.utf8ByteSize_append, String.utf8ByteSize_singleton, ih,
        bytes_cons]

theorem bytes_toList (text : String) : bytes text.toList = text.utf8ByteSize := by
  rw [← utf8ByteSize_ofList, String.ofList_toList]

theorem bytes_pos {cs : List Char} (h : cs ≠ []) : 0 < bytes cs := by
  obtain ⟨c, cs, rfl⟩ := List.ne_nil_iff_exists_cons.mp h
  have hc := c.utf8Size_pos
  rw [bytes_cons]
  omega

/-- Characters of a single byte are as many as their bytes. -/
theorem bytes_eq_length {cs : List Char} (h : ∀ c ∈ cs, c.utf8Size = 1) :
    bytes cs = cs.length := by
  induction cs with
  | nil => rfl
  | cons c cs ih =>
      obtain ⟨hc, hcs⟩ := List.forall_mem_cons.mp h
      rw [bytes_cons, hc, ih hcs, List.length_cons, Nat.add_comm]

section Split

variable {front back : List Char} {i : Nat}

/-- At the end of a stretch from the front there is a position of the text. -/
theorem exists_pos (back : List Char) (h : bytes front = i) :
    ∃ p : (String.ofList (front ++ back)).Pos,
      (String.ofList (front ++ back)).pos? ⟨i⟩ = some p ∧
        p.Splits (String.ofList front) (String.ofList back) := by
  have hend : (⟨i⟩ : String.Pos.Raw) = (String.ofList front).rawEndPos := by
    rw [String.rawEndPos, utf8ByteSize_ofList, h]
  have hvalid : (⟨i⟩ : String.Pos.Raw).IsValid (String.ofList (front ++ back)) :=
    String.Pos.Raw.isValid_iff_exists_append.mpr
      ⟨String.ofList front, String.ofList back, String.ofList_append, hend⟩
  refine ⟨String.pos _ _ hvalid, ?_, ⟨String.ofList_append, ?_⟩⟩
  · rw [String.pos?, String.Slice.pos?, dif_pos]
    · rfl
    · exact String.Pos.Raw.isValidForSlice_eq_true_iff.mpr hvalid.toSlice
  · exact String.offset_pos.trans hend

theorem from?_eq_some (h : bytes front = i) :
    from? (String.ofList (front ++ back)) i = some (String.ofList back) := by
  obtain ⟨p, hp, hsplits⟩ := exists_pos back h
  rw [from?, hp, Option.map_some]
  exact congrArg some (p.splits.eq_right hsplits)

theorem upTo?_eq_some (h : bytes front = i) :
    upTo? (String.ofList (front ++ back)) i = some (String.ofList front) := by
  obtain ⟨p, hp, hsplits⟩ := exists_pos back h
  rw [upTo?, hp, Option.map_some]
  exact congrArg some (p.splits.eq_left hsplits)

end Split

/-- A slice from the front is what the text starts with. -/
theorem eq_append_of_upTo? {text slice : String} {i : Nat} (h : upTo? text i = some slice) :
    ∃ rest, text = slice ++ rest := by
  obtain ⟨p, -, rfl⟩ := Option.map_eq_some_iff.mp h
  exact ⟨_, p.splits.eq_append⟩

end Access
end Calculator
