import Calculator.Text.ClusterClass

/-!
# Grapheme clusters

A grapheme cluster is what a reader takes for one character: a letter with its
marks, a syllable, a flag, an emoji made of several.  Texts are cut by the rules
for extended grapheme clusters of the Unicode standard.  Whether a character
continues a cluster depends only on its class and on the classes of the
characters in that cluster.

Cutting loses nothing: the clusters joined together are the text.
-/

namespace Calculator
namespace Text
namespace ClusterClass

/-- The classes that form clusters of their own.  Only a carriage return and a
line feed behind it share one. -/
def standsApart : ClusterClass → Bool
  | carriageReturn => true
  | lineFeed => true
  | control => true
  | _ => false

/-- The classes of marks that extend what is in front of them. -/
def isExtending : ClusterClass → Bool
  | extend => true
  | linker => true
  | nonJoiner => true
  | _ => false

/-- The classes that may stand inside a conjunct, between its consonants. -/
def isWithinConjunct : ClusterClass → Bool
  | extend => true
  | linker => true
  | joiner => true
  | _ => false

/-- Whether the parts of a Hangul syllable belong together. -/
def isSyllablePair : ClusterClass → ClusterClass → Bool
  | leading, leading => true
  | leading, vowel => true
  | leading, openSyllable => true
  | leading, closedSyllable => true
  | openSyllable, vowel => true
  | openSyllable, trailing => true
  | vowel, vowel => true
  | vowel, trailing => true
  | closedSyllable, trailing => true
  | trailing, trailing => true
  | _, _ => false

/-- Whether a consonant forms a conjunct with the one in front of it: only marks
stand between them, at least one of which is a linker.  The classes in front are
given in reverse. -/
def endsLinked (before : List ClusterClass) : Bool :=
  (before.takeWhile isWithinConjunct).contains linker &&
    (before.dropWhile isWithinConjunct).head? == some consonant

/-- Whether a pictograph is joined to the one in front of it, which may carry
marks. -/
def endsJoined : List ClusterClass → Bool
  | joiner :: before => (before.dropWhile isExtending).head? == some pictograph
  | _ => false

/-- Whether the last half of a flag still lacks the other one. -/
def endsInHalfFlag (before : List ClusterClass) : Bool :=
  (before.takeWhile (· == regional)).length % 2 == 1

/-- Whether a character continues a cluster.  The classes of the cluster so far
are given in reverse. -/
def continues (before : List ClusterClass) (next : ClusterClass) : Bool :=
  match before with
  | [] => true
  | last :: _ =>
    if last.standsApart || next.standsApart then last == carriageReturn && next == lineFeed
    else if next.isExtending || next == joiner || next == spacingMark then true
    else if last == prepend || isSyllablePair last next then true
    else
      match next with
      | consonant => endsLinked before
      | pictograph => endsJoined before
      | regional => endsInHalfFlag before
      | _ => false

end ClusterClass

/-- Gathers the rest of a cluster and the clusters behind it.  The characters of
the cluster so far and their classes are given in reverse. -/
def gatherClusters (cluster : List Char) (classes : List ClusterClass) :
    List Char → List (List Char)
  | [] => [cluster.reverse]
  | c :: cs =>
    if ClusterClass.continues classes (.ofChar c) then
      gatherClusters (c :: cluster) (.ofChar c :: classes) cs
    else cluster.reverse :: gatherClusters [c] [.ofChar c] cs

/-- The grapheme clusters of a text, in order. -/
def clusters : List Char → List (List Char)
  | [] => []
  | c :: cs => gatherClusters [c] [.ofChar c] cs

theorem flatten_gatherClusters
    (cluster : List Char) (classes : List ClusterClass) (cs : List Char) :
    (gatherClusters cluster classes cs).flatten = cluster.reverse ++ cs := by
  induction cs generalizing cluster classes with
  | nil => simp [gatherClusters]
  | cons c cs ih =>
    rw [gatherClusters]
    split
    · rw [ih]
      simp
    · rw [List.flatten_cons, ih]
      simp

/-- Cutting a text into clusters loses nothing. -/
theorem flatten_clusters (cs : List Char) : (clusters cs).flatten = cs := by
  cases cs with
  | nil => rfl
  | cons c cs => simp [clusters, flatten_gatherClusters]

end Text
end Calculator
