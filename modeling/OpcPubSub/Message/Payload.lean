/-
Payloads: the named values of one dataset message, in the order they were added, no name twice. Adding under a name
that is there already is refused and changes nothing.
-/
import OpcPubSub.DataValue

namespace OpcPubSub

structure Payload where
  fields : List (String × DataValue) := []
  unique : (fields.map Prod.fst).Nodup := by simp

namespace Payload

def empty : Payload := {}

instance : Inhabited Payload := ⟨empty⟩

def names (p : Payload) : List String := p.fields.map Prod.fst

def size (p : Payload) : Nat := p.fields.length

def get? (p : Payload) (name : String) : Option DataValue := (p.fields.find? fun f => f.1 == name).map Prod.snd

theorem nodup_snoc {p : Payload} {name : String} (v : DataValue) (h : name ∉ p.names) :
    ((p.fields ++ [(name, v)]).map Prod.fst).Nodup := by
  rw [List.map_append, List.nodup_append]
  refine ⟨p.unique, by simp, fun a ha b hb => ?_⟩
  simp only [List.map_cons, List.map_nil, List.mem_singleton] at hb
  rintro rfl
  exact h (hb ▸ ha)

/-- one more field at the end -/
def insert (p : Payload) (name : String) (v : DataValue) : Except Fault Payload :=
  if h : name ∈ p.names then .error (.duplicateField name) else .ok ⟨p.fields ++ [(name, v)], nodup_snoc v h⟩

/-- the payload of a list of fields; the first repeated name is the error -/
def ofPairs (fields : List (String × DataValue)) : Except Fault Payload :=
  fields.foldlM (fun p f => p.insert f.1 f.2) empty

/-- the same names and values in the same order -/
def same (a b : Payload) : Bool :=
  a.names = b.names && (a.fields.zip b.fields).all fun (x, y) => x.2.same y.2

end Payload

end OpcPubSub
