/-
Label sets. A series of a metric is known by its labels, pairs of a name and a value, whatever their order: the pairs
are sorted, by name and then by value, before they are compared or shown. Values are shown in quotes, with a backslash
before quotes and backslashes and `\n` for a line feed, so that a sample is always one line.
-/

namespace OpcPubSub.Metrics

abbrev Label := String × String

/-- the order of labels: by name, then by value -/
def labelLe (a b : Label) : Bool := a.1 < b.1 || (a.1 == b.1 && a.2 ≤ b.2)

/-- labels in order -/
structure LabelSet where
  labels : List Label
deriving DecidableEq, Repr

namespace LabelSet

def ofList (labels : List Label) : LabelSet := ⟨labels.mergeSort labelLe⟩

/-- one character of a label value -/
def escapeChar (c : Char) : List Char :=
  if c = '\\' then ['\\', '\\']
  else if c = '"' then ['\\', '"']
  else if c = '\n' then ['\\', 'n']
  else [c]

/-- a label as it is shown -/
def labelText (l : Label) : String := l.1 ++ "=\"" ++ String.ofList (l.2.toList.flatMap escapeChar) ++ "\""

/-- the labels as they are shown -/
def text (s : LabelSet) : String := ",".intercalate (s.labels.map labelText)

end LabelSet

end OpcPubSub.Metrics
