import Calculator.Expr.Yard

/-!
# The symbol table

The variables and functions that the user has stored, and the last answer.  A
name has one entry at most, so it is never both a variable and a function.
-/

namespace Calculator

/-- The free variable of every user function. -/
def freeVariable : String := "x"

/-- The name of the last answer. -/
def lastAnswerName : String := "ans"

/-- A user function of `x`: the text it was defined with and the result of
parsing that text.  A text that does not parse is stored all the same, and the
function fails whenever it is called. -/
structure Definition where
  source : String
  body : Except EvalError Expr
  body_eq : body = Expr.parse source

namespace Definition

def ofSource (source : String) : Definition :=
  ⟨source, Expr.parse source, rfl⟩

/-- A definition is determined by its text. -/
@[ext]
theorem ext {d e : Definition} (h : d.source = e.source) : d = e := by
  obtain ⟨s, b, hb⟩ := d
  obtain ⟨t, c, hc⟩ := e
  cases h
  cases hb
  cases hc
  rfl

end Definition

/-- What a stored name stands for. -/
inductive Entry where
  | variable (v : Float)
  | function (d : Definition)

structure Symbols where
  /-- The stored names, each at most once. -/
  entries : List (String × Entry) := []
  lastAnswer : Float := 0

namespace Symbols

def find? (s : Symbols) (name : String) : Option Entry :=
  s.entries.lookup name

def valueOf? (s : Symbols) (name : String) : Option Float :=
  match s.find? name with
  | some (.variable v) => some v
  | _ => none

def functionOf? (s : Symbols) (name : String) : Option Definition :=
  match s.find? name with
  | some (.function d) => some d
  | _ => none

/-- Stores an entry in place of whatever the name stood for. -/
def store (s : Symbols) (name : String) (entry : Entry) : Symbols :=
  { s with entries := (name, entry) :: s.entries.filter (·.1 != name) }

def setVariable (s : Symbols) (name : String) (v : Float) : Symbols :=
  s.store name (.variable v)

def define (s : Symbols) (name : String) (d : Definition) : Symbols :=
  s.store name (.function d)

def setLastAnswer (s : Symbols) (v : Float) : Symbols :=
  { s with lastAnswer := v }

/-- Forgets every variable and function, but not the last answer. -/
def clear (s : Symbols) : Symbols :=
  { s with entries := [] }

def isEmpty (s : Symbols) : Bool :=
  s.entries.isEmpty

private theorem lookup_cons_of_ne
    (entry : Entry) (entries : List (String × Entry)) {name other : String}
    (h : other ≠ name) :
    ((name, entry) :: entries).lookup other = entries.lookup other := by
  rw [List.lookup_cons, beq_false_of_ne h]

private theorem lookup_filter_ne
    (entries : List (String × Entry)) {name other : String} (h : other ≠ name) :
    (entries.filter (·.1 != name)).lookup other = entries.lookup other := by
  induction entries with
  | nil => rfl
  | cons head tail ih =>
    obtain ⟨key, entry⟩ := head
    by_cases hk : key = name
    · subst hk
      rw [List.filter_cons_of_neg (by simp), ih, lookup_cons_of_ne entry tail h]
    · rw [List.filter_cons_of_pos (by simpa using hk)]
      by_cases ho : other = key
      · subst ho
        rw [List.lookup_cons_self, List.lookup_cons_self]
      · rw [lookup_cons_of_ne entry _ ho, lookup_cons_of_ne entry _ ho, ih]

/-- Storing changes the entry of one name and no other. -/
theorem find?_store (s : Symbols) (name other : String) (entry : Entry) :
    (s.store name entry).find? other =
      if other = name then some entry else s.find? other := by
  by_cases h : other = name
  · subst h
    rw [if_pos rfl, find?, store, List.lookup_cons_self]
  · rw [if_neg h, find?, store, lookup_cons_of_ne entry _ h, lookup_filter_ne _ h, find?]

@[simp]
theorem lastAnswer_store (s : Symbols) (name : String) (entry : Entry) :
    (s.store name entry).lastAnswer = s.lastAnswer := rfl

@[simp]
theorem find?_setLastAnswer (s : Symbols) (v : Float) (name : String) :
    (s.setLastAnswer v).find? name = s.find? name := rfl

end Symbols
end Calculator
