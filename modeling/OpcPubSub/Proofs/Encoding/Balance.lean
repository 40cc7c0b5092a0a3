/-
Brackets: what a writer counts is what stands in its text.

A `Scan` goes over a text character by character and knows neither documents nor writers: it skips strings, takes an
opening bracket on a stack, takes the innermost off where its own closing bracket comes, and counts as it goes. A writer
is balanced if the scan of its text ends with the writer's own containers and counts (`Writer.Balanced`). Every move
keeps that, so every call does (`Script.runCall_balanced`), and every script (`Script.run_balanced`). Main result:
- `encode_balanced`: how a writer is left by a network message, and what shape its text has.
-/
import OpcPubSub.Proofs.Encoding.Moves
import OpcPubSub.Proofs.Json.Floats

namespace OpcPubSub

/-! ## Scanning a text for brackets -/

/-- what the next character of a text is part of -/
inductive Region where
  | outside
  /-- a string -/
  | quoted
  /-- a string, just after a backslash -/
  | escaped
deriving DecidableEq, Repr

/-- how far a scan has come: the brackets that are open, the innermost first, and what was counted -/
structure Scan where
  region : Region := .outside
  opened : List Container := []
  stats : Stats := {}
deriving DecidableEq, Repr

namespace Scan

/-- an opening bracket -/
def enter (s : Scan) (kind : Container) : Scan :=
  { s with opened := kind :: s.opened,
           stats := { s.stats with opens := s.stats.opens + 1,
                                   maxDepth := max s.stats.maxDepth (s.opened.length + 1) } }

/-- a closing bracket, if it belongs to the innermost that is open -/
def leave (s : Scan) (kind : Container) : Option Scan :=
  match s.opened with
  | [] => none
  | inner :: rest =>
    if inner = kind then some { s with opened := rest, stats := { s.stats with closes := s.stats.closes + 1 } }
    else none

/-- one character -/
def next (s : Scan) (c : Char) : Option Scan :=
  match s.region with
  | .escaped => some { s with region := .quoted }
  | .quoted =>
    if c = '\\' then some { s with region := .escaped }
    else if c = '"' then some { s with region := .outside }
    else some s
  | .outside =>
    if c = '"' then some { s with region := .quoted }
    else if c = '\x7b' then some (s.enter .object)
    else if c = '[' then some (s.enter .array)
    else if c = '\x7d' then s.leave .object
    else if c = ']' then s.leave .array
    else some s

/-- a whole text; none if a bracket closes what is not open -/
def run (s : Scan) (cs : List Char) : Option Scan := cs.foldlM next s

theorem run_cons (s : Scan) (c : Char) (cs : List Char) : s.run (c :: cs) = (s.next c).bind fun s => s.run cs :=
  List.foldlM_cons

theorem run_append (s : Scan) (cs ds : List Char) : s.run (cs ++ ds) = (s.run cs).bind fun s => s.run ds :=
  List.foldlM_append

end Scan

/-! ## Texts without brackets -/

/-- outside strings the text opens and closes nothing, and it ends outside them -/
def Quiet (cs : List Char) : Prop := ∀ s : Scan, s.region = .outside → s.run cs = some s

/-- a character that a scan passes over outside strings -/
def Calm (c : Char) : Prop := c ≠ '"' ∧ c ≠ '\x7b' ∧ c ≠ '[' ∧ c ≠ '\x7d' ∧ c ≠ ']'

theorem Quiet.of_calm {cs : List Char} (h : ∀ c ∈ cs, Calm c) : Quiet cs := by
  intro s hs
  induction cs with
  | nil => rfl
  | cons c cs ih =>
    obtain ⟨h1, h2, h3, h4, h5⟩ := h c List.mem_cons_self
    have hnext : s.next c = some s := by simp [Scan.next, hs, h1, h2, h3, h4, h5]
    rw [Scan.run_cons, hnext]
    exact ih fun d hd => h d (List.mem_cons_of_mem c hd)

theorem Quiet.append {cs ds : List Char} (hcs : Quiet cs) (hds : Quiet ds) : Quiet (cs ++ ds) := by
  intro s hs
  rw [Scan.run_append, hcs s hs]
  exact hds s hs

/-! ### Strings -/

/-- inside a string a scan passes over what is no quote and no backslash -/
theorem Scan.run_of_quoted {s : Scan} (hs : s.region = .quoted) {cs : List Char} (h : ∀ c ∈ cs, c ≠ '"' ∧ c ≠ '\\') :
    s.run cs = some s := by
  induction cs with
  | nil => rfl
  | cons c cs ih =>
    obtain ⟨hquote, hslash⟩ := h c List.mem_cons_self
    have hnext : s.next c = some s := by simp [Scan.next, hs, hquote, hslash]
    rw [run_cons, hnext]
    exact ih fun d hd => h d (List.mem_cons_of_mem c hd)

/-- and over the escape of any character -/
theorem Scan.run_escapeChar {s : Scan} (hs : s.region = .quoted) (c : Char) : s.run (Json.escapeChar c) = some s := by
  -- a backslash, one more character, and after them the digits of a control character
  have hescape : ∀ (d : Char) (rest : List Char), (∀ e ∈ rest, e ≠ '"' ∧ e ≠ '\\') →
      s.run ('\\' :: d :: rest) = some s := by
    intro d rest hrest
    have hnext : s.next '\\' = some { s with region := .escaped } := by simp [Scan.next, hs]
    have hsame : { s with region := .quoted } = s := by rw [← hs]
    rw [run_cons, hnext, Option.bind_some, run_cons, Scan.next, Option.bind_some, hsame]
    exact run_of_quoted hs hrest
  unfold Json.escapeChar
  split_ifs with h1 h2 h3 h4 h5 h6 h7 h8
  iterate 7 exact hescape _ [] (by simp)
  · refine hescape 'u' _ fun e he => ?_
    obtain ⟨d, hd⟩ := Text.hexValue_of_mem_hexDigits he
    constructor <;> (rintro rfl; simp [Text.hexValue] at hd)
  · exact run_of_quoted hs (by simpa using ⟨h1, h2⟩)

/-- a string is passed over, whatever brackets and quotes are in it -/
theorem quiet_quote (text : String) : Quiet (Json.quote text).toList := by
  intro s hs
  have hinside : ∀ cs : List Char, ({ s with region := .quoted } : Scan).run (cs.flatMap Json.escapeChar) =
      some { s with region := .quoted } := by
    intro cs
    induction cs with
    | nil => rfl
    | cons c cs ih =>
      rw [List.flatMap_cons, Scan.run_append, Scan.run_escapeChar rfl]
      exact ih
  have hopen : s.next '"' = some { s with region := .quoted } := by simp [Scan.next, hs]
  have hsame : { s with region := .outside } = s := by rw [← hs]
  rw [Json.quote, String.toList_ofList, List.cons_append, Scan.run_cons, hopen, Option.bind_some, Scan.run_append,
    hinside, Option.bind_some]
  simp [Scan.run, Scan.next, hsame]

/-! ### Numbers -/

theorem calm_of_isDigit {c : Char} (h : c.isDigit = true) : Calm c := by
  refine ⟨?_, ?_, ?_, ?_, ?_⟩ <;> (rintro rfl; simp at h)

theorem Json.AreDigits.calm {ds : List Char} (h : Json.AreDigits ds) : ∀ c ∈ ds, Calm c :=
  fun c hc => calm_of_isDigit (h.all c hc)

/-- digits, a point, the letter of an exponent, and signs -/
theorem quiet_numeral {n : Json.Numeral} (h : n.Grammatical) : Quiet n.text := by
  refine Quiet.append ?_ ((Quiet.of_calm h.whole.calm).append (Quiet.append ?_ ?_))
  · cases n.negative <;> exact .of_calm (by simp [Calm])
  · cases hf : n.fraction with
    | none => exact .of_calm (by simp [Json.fractionText])
    | some ds =>
      have hpoint : Quiet ['.'] := .of_calm (by simp [Calm])
      exact hpoint.append (.of_calm (h.fraction ds hf).calm)
  · cases he : n.exponent with
    | none => exact .of_calm (by simp [Json.exponentText])
    | some e =>
      obtain ⟨minus, ds⟩ := e
      have hletter : Quiet ['e', if minus then '-' else '+'] := by
        cases minus <;> exact .of_calm (by simp [Calm])
      exact hletter.append (.of_calm (h.exponent minus ds he).calm)

theorem quiet_floatText {f : Number.Format} {w : Number.Window} (h : Number.Printable f w) (bits : Nat) :
    Quiet (Number.floatText f w bits) := by
  by_cases hspecial : (f.fields bits).biased = f.special
  · rw [Number.floatText, if_pos hspecial]
    exact .of_calm (by simp [Calm])
  · rw [Number.floatText_eq f w hspecial]
    exact quiet_numeral (Number.grammatical_numeral h (Number.zero_or_regular hspecial))

theorem quiet_atom (a : Atom) : Quiet a.text.toList := by
  cases a with
  | null => exact .of_calm (by simp [Atom.text, Calm])
  | bool b => cases b <;> exact .of_calm (by simp [Atom.text, Calm])
  | int n =>
    rw [Atom.text, ← Json.text_ofInt]
    exact quiet_numeral (Json.grammatical_ofInt n)
  | double x =>
    rw [Atom.text, String.toList_ofList]
    exact quiet_floatText Number.printable_binary64 _
  | single x =>
    rw [Atom.text, String.toList_ofList]
    exact quiet_floatText Number.printable_binary32 _
  | string s => exact quiet_quote s

/-! ## Writers -/

/-- the brackets in the text are the containers of the writer, and as many as it has counted -/
def Writer.Balanced (w : Writer) : Prop :=
  ({} : Scan).run w.out.toList = some { opened := w.stack.map OpenContainer.kind, stats := w.stats }

namespace Writer.Balanced

variable {w v : Writer}

theorem fresh (form : Bool) : Balanced { reversible := form } := rfl

/-- text without brackets, the containers the same but for their sizes -/
theorem grow (h : Balanced w) {text : String} (hquiet : Quiet text.toList) (hout : v.out = w.out ++ text)
    (hstack : v.stack.map OpenContainer.kind = w.stack.map OpenContainer.kind) (hstats : v.stats = w.stats) :
    Balanced v := by
  rw [Balanced, hout, String.toList_append, Scan.run_append, h, hstack, hstats]
  exact hquiet _ rfl

theorem place {name : Option String} (h : Balanced w) (hw : w.place name = .ok v) : Balanced v := by
  have hcomma : ∀ size : Nat, Quiet (if size = 0 then "" else ",").toList := by
    intro size
    split_ifs <;> exact .of_calm (by simp [Calm])
  obtain ⟨-, ⟨-, -, -, rfl⟩ | ⟨n, size, rest, hs, -, rfl⟩ | ⟨size, rest, hs, -, rfl⟩⟩ := Writer.place_cases hw
  · exact h
  · have hname : Quiet ((if size = 0 then "" else ",") ++ (Json.quote n ++ ":")).toList := by
      rw [String.toList_append, String.toList_append]
      exact (hcomma size).append ((quiet_quote n).append (.of_calm (by simp [Calm])))
    exact h.grow hname (String.append_assoc ..) (by simp [hs]) rfl
  · exact h.grow (hcomma size) rfl (by simp [hs]) rfl

theorem leaf {name : Option String} {a : Atom} (h : Balanced w) (hw : w.leaf name a = .ok v) : Balanced v := by
  obtain ⟨u, hplace, rfl⟩ := Writer.leaf_cases hw
  exact (h.place hplace).grow (quiet_atom a) rfl rfl rfl

theorem push {kind : Container} {name : Option String} (h : Balanced w) (hw : w.push kind name = .ok v) :
    Balanced v := by
  obtain ⟨u, hplace, rfl⟩ := Writer.push_cases hw
  rw [Balanced, String.toList_append, Scan.run_append, h.place hplace]
  cases kind <;> simp [Scan.run, Scan.next, Scan.enter, Container.opening]

theorem pop {kind : Container} (h : Balanced w) (hw : w.pop kind = .ok v) : Balanced v := by
  obtain ⟨size, rest, -, hs, rfl⟩ := Writer.pop_cases hw
  rw [Balanced, String.toList_append, Scan.run_append, h, hs]
  cases kind <;> simp [Scan.run, Scan.next, Scan.leave, Container.closing]

/-- **One value, one push and one pop keep text and counts together.** -/
theorem move (h : Balanced w) (hmove : w.Move v) : Balanced v := by
  cases hmove with
  | leaf hw => exact h.leaf hw
  | push hw => exact h.push hw
  | pop hw => exact h.pop hw
  | poison => exact h

end Writer.Balanced

theorem Writer.invariant_balanced : Invariant Balanced := ⟨Balanced.move⟩

namespace Script

/-- one call keeps text and counts together, also one that fails -/
theorem runCall_balanced (c : Call) {w : Writer} (h : w.Balanced) : (after (runCall c w).1).Balanced :=
  Writer.invariant_balanced.runCall c h

/-- **A script on a fresh writer keeps them together**: what was counted is what a scan of the text counts, and what is
open is what it finds open. -/
theorem run_balanced (form : Bool) (cs : List Call) : (run cs { reversible := form }).1.Balanced :=
  (Writer.invariant_balanced.run cs (Writer.Balanced.fresh form)).1

end Script

/-! ## Network messages -/

namespace NetworkMessage

/-- neither an envelope nor a single dataset message -/
def IsList (m : NetworkMessage) : Prop :=
  m.mask.contains NetworkMask.networkMessageHeader = false ∧ m.mask.contains NetworkMask.singleDataSetMessage = false

/-- the bracket that the document starts with -/
theorem head_document (m : NetworkMessage) (form : Bool) :
    ((m.document form).render.toList.head? = some '[' ↔ m.IsList) ∧
      ((m.document form).render.toList.head? = some '\x7b' ↔ ¬m.IsList) := by
  have harray : ∀ items, (Json.array items).render.toList.head? = some '[' := by
    intro items
    rw [Json.render_array, List.head?_cons]
  have hobject : ∀ ms, (Json.object ms).render.toList.head? = some '\x7b' := by
    intro ms
    rw [Json.render_object, List.head?_cons]
  unfold IsList document
  cases m.mask.contains NetworkMask.networkMessageHeader with
  | true => simp [hobject]
  | false =>
    cases m.mask.contains NetworkMask.singleDataSetMessage with
    | false => simp [harray]
    | true =>
      cases m.messages with
      | nil => simp [hobject]
      | cons first rest => simp [DataSetMessage.json, hobject]

/-- **A network message leaves the writer balanced.** A valid one, on a fresh writer of either form: the writer is not
poisoned and has nothing open; it has opened and closed as many containers as the document has, and its greatest depth
is how deep they are nested. A scan of the text for brackets comes to the same counts. The text starts with a bracket
iff the mask has neither an envelope nor a single message, else with a brace. One that is not valid leaves any writer as
it was. -/
theorem encode_balanced (m : NetworkMessage) (form : Bool) :
    (m.validate = .ok () → ∃ w text, Write.network m { reversible := form } = .ok () w ∧ w.finish = .ok text ∧
      w.poisoned = false ∧ w.depth = 0 ∧ text = (m.document form).render ∧
      w.stats = ⟨(m.document form).containers, (m.document form).containers, (m.document form).nesting⟩ ∧
      ({} : Scan).run text.toList = some { stats := w.stats } ∧
      (text.toList.head? = some '[' ↔ m.IsList) ∧ (text.toList.head? = some '\x7b' ↔ ¬m.IsList)) ∧
    ∀ e, m.validate = .error e → ∀ w, Write.network m w = .error e w := by
  constructor
  · intro hvalid
    have hrun : Write.network m { reversible := form } = .ok () (Writer.ofDocument form (m.document form)) :=
      (Write.writes_network m hvalid).run_fresh
    have hbalanced := Script.runCall_balanced (.network m) (Writer.Balanced.fresh form)
    rw [Script.runCall, hrun] at hbalanced
    have hscan : ({} : Scan).run (m.document form).render.toList =
        some { stats := (Writer.ofDocument form (m.document form)).stats } := by
      rw [← Writer.out_ofDocument form]
      exact hbalanced
    exact ⟨_, _, hrun, Writer.finish_ofDocument form _, rfl, rfl, rfl, Writer.stats_ofDocument form _, hscan,
      head_document m form⟩
  · intro e he w
    rw [Write.network_run, he]

/-- two messages of bare values: an array, and a text with brackets in it -/
def bracketed : NetworkMessage where
  messageId := ""
  messages := [
    { writerId := 1, fieldMask := FieldMask.rawData, mask := .empty,
      payload := ⟨[("a", .plain (.array .boolean [.scalar (.boolean true)]))], by simp⟩ },
    { writerId := 2, fieldMask := FieldMask.rawData, mask := .empty,
      payload := ⟨[("b", .plain (.scalar (.string "]\"\x7d")))], by simp⟩ }]
  mask := .empty

theorem encode_balanced_bracketed :
    bracketed.validate = .ok () ∧
      (∃ w text, Write.network bracketed { reversible := false } = .ok () w ∧ w.finish = .ok text ∧
        w.stats = ⟨4, 4, 3⟩ ∧ ({} : Scan).run text.toList = some { stats := ⟨4, 4, 3⟩ } ∧
        text.toList.head? = some '[') ∧
      ∀ w, Write.network { bracketed with mask := NetworkMask.singleDataSetMessage } w =
        .error (.singleMessageCount 2) w := by
  have hvalid : bracketed.validate = .ok () := rfl
  refine ⟨hvalid, ?_, ?_⟩
  · obtain ⟨w, text, hrun, hfinish, -, -, -, hstats, hscan, hhead, -⟩ := (encode_balanced bracketed false).1 hvalid
    have hcounts : w.stats = ⟨4, 4, 3⟩ := hstats
    rw [hcounts] at hscan
    exact ⟨w, text, hrun, hfinish, hcounts, hscan, hhead.2 ⟨rfl, rfl⟩⟩
  · exact (encode_balanced _ false).2 (.singleMessageCount 2) rfl

end NetworkMessage

end OpcPubSub
