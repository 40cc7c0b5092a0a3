/-
What lists of flag names mean.

A name means at most one flag of its layer: the names of a layer differ by more than the case of their letters. So a
list of names is read iff each of them means a flag, and as the mask that has the bits of these flags and no others.
The way back, from a mask to its names, loses the bits that no flag of the layer has. Main results:
- `ofNames_eq_ok`: a list of names is read as a mask iff the mask is what the names mean.
- `Means.contains_iff`: such a mask contains a flag of its layer iff one of the names means it.
- `ofNames_union`: what is read from any list of names, with the fault of a list that is not, and from a mask's own
  names.
-/
import Mathlib
import OpcPubSub.Mask
import OpcPubSub.Proofs.Except

namespace OpcPubSub.Mask

variable {l : Layer}

/-! ## What names mean -/

/-- `s` is the name of the flag, but for blanks around it and the case of ASCII letters -/
def Names (s : String) (flag : Mask l) : Prop := ∃ name, (name, flag) ∈ flags l ∧ sameName name (Text.trim s) = true

/-- bit `i` of the mask is set -/
def Bit (m : Mask l) (i : ℕ) : Prop := m.bits.toNat.testBit i = true

/-- the union of the flags that the names mean, each of which means one -/
structure Means (m : Mask l) (names : List String) : Prop where
  known : ∀ s ∈ names, ∃ flag : Mask l, Names s flag
  bits : ∀ i, m.Bit i ↔ ∃ s ∈ names, ∃ flag : Mask l, Names s flag ∧ flag.Bit i

/-! ## Bits -/

theorem eq_of_bits {a b : Mask l} (h : ∀ i, a.Bit i ↔ b.Bit i) : a = b := by
  obtain ⟨x⟩ := a
  obtain ⟨y⟩ := b
  rw [mk.injEq, ← UInt32.toNat_inj]
  exact Nat.eq_of_testBit_eq fun i => Bool.eq_iff_iff.2 (h i)

theorem bit_union (a b : Mask l) (i : ℕ) : (a.union b).Bit i ↔ a.Bit i ∨ b.Bit i := by
  rw [Bit, union, UInt32.toNat_or, Nat.testBit_or, Bool.or_eq_true]
  rfl

theorem not_bit_empty (i : ℕ) : ¬(empty : Mask l).Bit i := by
  show ¬(0 : ℕ).testBit i = true
  simp

/-- a flag of a layer is one bit -/
theorem exists_bits_eq {name : String} {flag : Mask l} (h : (name, flag) ∈ flags l) :
    ∃ i, flag.bits.toNat = 2 ^ i := by
  have hall : ∀ f ∈ flags l, ∃ i < 7, f.2.bits.toNat = 2 ^ i := by
    cases l <;> decide
  obtain ⟨i, -, hi⟩ := hall (name, flag) h
  exact ⟨i, hi⟩

theorem bit_iff_of_bits_eq {flag : Mask l} {i : ℕ} (h : flag.bits.toNat = 2 ^ i) (j : ℕ) : flag.Bit j ↔ i = j := by
  rw [Bit, h, Nat.testBit_two_pow, decide_eq_true_iff]

theorem contains_iff_of_bits_eq {flag : Mask l} {i : ℕ} (h : flag.bits.toNat = 2 ^ i) (m : Mask l) :
    m.contains flag = true ↔ m.Bit i := by
  rw [contains, beq_iff_eq, ← UInt32.toNat_inj, UInt32.toNat_and, h, Nat.and_two_pow, Bit]
  have hpos : 0 ≠ 2 ^ i := (Nat.two_pow_pos i).ne
  cases m.bits.toNat.testBit i
  · simpa using hpos
  · simp

/-! ## Names -/

theorem sameName_iff (a b : String) :
    sameName a b = true ↔ a.toList.map Char.toLower = b.toList.map Char.toLower := by
  rw [sameName, beq_iff_eq]

theorem nodup_names (l : Layer) : ((flags l).map fun f => f.1.toList.map Char.toLower).Nodup := by
  cases l <;> decide +kernel

/-- a name means one flag -/
theorem Names.unique {s : String} {a b : Mask l} (ha : Names s a) (hb : Names s b) : a = b := by
  obtain ⟨name, hname, hsame⟩ := ha
  obtain ⟨name', hname', hsame'⟩ := hb
  rw [sameName_iff] at hsame hsame'
  have heq := List.inj_on_of_nodup_map (nodup_names l) hname hname' (hsame.trans hsame'.symm)
  exact congrArg Prod.snd heq

/-- a name is read as the flag it means; one that means none is a fault of the configuration -/
theorem ofName_cases (l : Layer) (s : String) :
    (∃ flag : Mask l, Names s flag ∧ ofName l s = .ok flag) ∨
      (∀ flag : Mask l, ¬Names s flag) ∧
        ofName l s = .error (.badConfig (s!"unknown {l.title} flag: " ++ Text.trim s)) := by
  simp only [ofName]
  cases hfind : (flags l).find? fun f => sameName f.1 (Text.trim s) with
  | some f =>
    left
    have hsame := List.find?_some hfind
    exact ⟨f.2, ⟨f.1, List.mem_of_find?_eq_some hfind, hsame⟩, rfl⟩
  | none =>
    right
    refine ⟨?_, rfl⟩
    rintro flag ⟨name, hname, hsame⟩
    exact absurd hsame (List.find?_eq_none.1 hfind (name, flag) hname)

theorem ofName_eq_ok {s : String} {flag : Mask l} : ofName l s = .ok flag ↔ Names s flag := by
  rcases ofName_cases l s with ⟨other, hother, heq⟩ | ⟨hnone, heq⟩
  · rw [heq, Except.ok.injEq]
    exact ⟨fun h => h ▸ hother, fun h => hother.unique h⟩
  · rw [heq]
    constructor
    · intro h
      cases h
    · intro h
      exact absurd h (hnone flag)

/-! ## Lists of names -/

/-- the mask read so far goes on with the flags of the names that are left -/
theorem foldlM_eq_ok {names : List String} {start m : Mask l} :
    names.foldlM (fun m s => (ofName l s).map m.union) start = .ok m ↔
      (∀ s ∈ names, ∃ flag : Mask l, Names s flag) ∧
        ∀ i, m.Bit i ↔ start.Bit i ∨ ∃ s ∈ names, ∃ flag : Mask l, Names s flag ∧ flag.Bit i := by
  induction names generalizing start with
  | nil =>
    constructor
    · intro h
      cases h
      simp
    · rintro ⟨-, hbits⟩
      have heq : start = m := eq_of_bits fun i => by simp [hbits]
      rw [heq]
      rfl
  | cons s names ih =>
    -- the bits of the one flag that the first name means
    have hfirst : ∀ {flag : Mask l}, Names s flag → ∀ i, (∃ f : Mask l, Names s f ∧ f.Bit i) ↔ flag.Bit i :=
      fun hflag i => ⟨fun ⟨f, hf, hi⟩ => hf.unique hflag ▸ hi, fun hi => ⟨_, hflag, hi⟩⟩
    rw [List.foldlM_cons, bind_eq_ok]
    constructor
    · rintro ⟨next, hnext, hrest⟩
      obtain ⟨flag, hflag, rfl⟩ := map_eq_ok.1 hnext
      rw [ofName_eq_ok] at hflag
      obtain ⟨hknown, hbits⟩ := ih.1 hrest
      refine ⟨List.forall_mem_cons.2 ⟨⟨flag, hflag⟩, hknown⟩, fun i => ?_⟩
      rw [hbits, bit_union, List.exists_mem_cons_iff, or_assoc, hfirst hflag]
    · rintro ⟨hknown, hbits⟩
      obtain ⟨⟨flag, hflag⟩, hknown⟩ := List.forall_mem_cons.1 hknown
      refine ⟨start.union flag, map_eq_ok.2 ⟨flag, ofName_eq_ok.2 hflag, rfl⟩, ih.2 ⟨hknown, fun i => ?_⟩⟩
      rw [hbits, bit_union, List.exists_mem_cons_iff, or_assoc, hfirst hflag]

/-- **A list of names is read as a mask iff that is what the names mean.** -/
theorem ofNames_eq_ok {names : List String} {m : Mask l} : ofNames l names = .ok m ↔ m.Means names := by
  have hstart : ∀ i, ¬(empty : Mask l).Bit i := not_bit_empty
  rw [ofNames, foldlM_eq_ok]
  simp only [hstart, false_or]
  exact ⟨fun h => ⟨h.1, h.2⟩, fun h => ⟨h.known, h.bits⟩⟩

/-- the mask read so far goes on, or stops at the first name that means no flag -/
theorem foldlM_cases (names : List String) (start : Mask l) :
    (∃ m, names.foldlM (fun m s => (ofName l s).map m.union) start = .ok m) ∨
      ∃ before s after, names = before ++ s :: after ∧ (∀ t ∈ before, ∃ flag : Mask l, Names t flag) ∧
        (∀ flag : Mask l, ¬Names s flag) ∧
        names.foldlM (fun m s => (ofName l s).map m.union) start =
          .error (.badConfig (s!"unknown {l.title} flag: " ++ Text.trim s)) := by
  induction names generalizing start with
  | nil => exact Or.inl ⟨start, rfl⟩
  | cons s names ih =>
    rw [List.foldlM_cons]
    rcases ofName_cases l s with ⟨flag, hflag, hs⟩ | ⟨hnone, hs⟩
    · rw [hs]
      rcases ih (start.union flag) with hok | ⟨before, t, after, rfl, hbefore, hnone, herror⟩
      · exact Or.inl hok
      · exact Or.inr ⟨s :: before, t, after, rfl, List.forall_mem_cons.2 ⟨⟨flag, hflag⟩, hbefore⟩, hnone, herror⟩
    · rw [hs]
      exact Or.inr ⟨[], s, names, rfl, by simp, hnone, rfl⟩

/-- names that all mean flags are read as a mask -/
theorem exists_ofNames {names : List String} (h : ∀ s ∈ names, ∃ flag : Mask l, Names s flag) :
    ∃ m, ofNames l names = .ok m := by
  rcases foldlM_cases names (empty : Mask l) with hok | ⟨before, s, after, rfl, -, hnone, -⟩
  · exact hok
  · obtain ⟨flag, hflag⟩ := h s (by simp)
    exact absurd hflag (hnone flag)

/-- a list of names fails at the first that means no flag -/
theorem ofNames_eq_error {names : List String} {e : Fault} :
    ofNames l names = .error e ↔ ∃ before s after, names = before ++ s :: after ∧
      (∀ t ∈ before, ∃ flag : Mask l, Names t flag) ∧ (∀ flag : Mask l, ¬Names s flag) ∧
      e = .badConfig (s!"unknown {l.title} flag: " ++ Text.trim s) := by
  constructor
  · intro h
    rw [ofNames] at h
    rcases foldlM_cases names (empty : Mask l) with ⟨m, hok⟩ | ⟨before, s, after, hsplit, hbefore, hnone, herror⟩
    · rw [hok] at h
      cases h
    · rw [herror] at h
      cases h
      exact ⟨before, s, after, hsplit, hbefore, hnone, rfl⟩
  · rintro ⟨before, s, after, rfl, hbefore, hnone, rfl⟩
    obtain ⟨m, hm⟩ := exists_ofNames hbefore
    rw [ofNames] at hm
    rw [ofNames, List.foldlM_append, hm]
    rcases ofName_cases l s with ⟨flag, hflag, -⟩ | ⟨-, hs⟩
    · exact absurd hflag (hnone flag)
    · show (s :: after).foldlM (fun m s => (ofName l s).map m.union) m = _
      rw [List.foldlM_cons, hs]
      rfl

/-- a name that means no flag is a fault of the configuration -/
theorem code_of_ofNames {names : List String} {e : Fault} (h : ofNames l names = .error e) : e.code = .badConfig := by
  obtain ⟨before, s, after, -, -, -, rfl⟩ := ofNames_eq_error.1 h
  rfl

/-- **A mask that was read contains a flag iff one of the names means it.** -/
theorem Means.contains_iff {m : Mask l} {names : List String} (h : m.Means names) {name : String} {flag : Mask l}
    (hflag : (name, flag) ∈ flags l) : m.contains flag = true ↔ ∃ s ∈ names, Names s flag := by
  obtain ⟨i, hi⟩ := exists_bits_eq hflag
  rw [contains_iff_of_bits_eq hi, h.bits]
  constructor
  · rintro ⟨s, hs, other, hother, hbit⟩
    obtain ⟨name', hname', -⟩ := id hother
    obtain ⟨j, hj⟩ := exists_bits_eq hname'
    obtain rfl := (bit_iff_of_bits_eq hj i).1 hbit
    have heq : other = flag := eq_of_bits fun k => by rw [bit_iff_of_bits_eq hj, bit_iff_of_bits_eq hi]
    exact ⟨s, hs, heq ▸ hother⟩
  · rintro ⟨s, hs, hname⟩
    exact ⟨s, hs, flag, hname, (bit_iff_of_bits_eq hi i).2 rfl⟩

/-- the order of the names and how often each of them stands there do not matter -/
theorem Means.of_same_names {m : Mask l} {names other : List String} (h : m.Means names)
    (hsame : ∀ s, s ∈ other ↔ s ∈ names) : m.Means other := by
  constructor
  · intro s hs
    exact h.known s ((hsame s).1 hs)
  · intro i
    rw [h.bits]
    simp only [hsame]

/-! ## The names of a mask -/

/-- the names of the flags in a mask, by rising bits and each of them once -/
structure Lists (m : Mask l) (names : List String) : Prop where
  mem : ∀ s, s ∈ names ↔ ∃ flag : Mask l, (s, flag) ∈ flags l ∧ m.contains flag = true
  rising : names.Pairwise fun s t => ∀ a b : Mask l, Names s a → Names t b → a.bits < b.bits

/-- the flags that a layer declares are those that have names -/
theorem mem_declared_iff {flag : Mask l} : flag ∈ declared l ↔ ∃ name, (name, flag) ∈ flags l := by
  have heq : declared l = (flags l).map Prod.snd := by
    cases l <;> rfl
  rw [heq, List.mem_map]
  constructor
  · rintro ⟨⟨name, flag⟩, hmem, rfl⟩
    exact ⟨name, hmem⟩
  · rintro ⟨name, hmem⟩
    exact ⟨(name, flag), hmem, rfl⟩

/-- the table of names goes by rising bits -/
theorem pairwise_flags (l : Layer) : (flags l).Pairwise fun f g => f.2.bits < g.2.bits := by
  cases l <;> decide

/-- a flag's own name means it -/
theorem names_of_mem {name : String} {flag : Mask l} (h : (name, flag) ∈ flags l) : Names name flag := by
  have htrim : ∀ f ∈ flags l, Text.trim f.1 = f.1 := by
    cases l <;> decide +kernel
  have hself : Text.trim name = name := htrim (name, flag) h
  exact ⟨name, h, (sameName_iff _ _).2 (by rw [hself])⟩

theorem bit_foldl_union (fs : List (Mask l)) (start : Mask l) (i : ℕ) :
    (fs.foldl union start).Bit i ↔ start.Bit i ∨ ∃ flag ∈ fs, flag.Bit i := by
  induction fs generalizing start with
  | nil => simp
  | cons flag fs ih => rw [List.foldl_cons, ih, bit_union, List.exists_mem_cons_iff, or_assoc]

/-- what is left of a mask are the bits that belong to flags of its layer -/
theorem bit_truncate (m : Mask l) (i : ℕ) : m.truncate.Bit i ↔ m.Bit i ∧ ∃ flag ∈ declared l, flag.Bit i := by
  have hall : (all l).Bit i ↔ ∃ flag ∈ declared l, flag.Bit i := by
    rw [all, bit_foldl_union]
    exact or_iff_right (not_bit_empty i)
  rw [← hall, Bit, truncate, UInt32.toNat_and, Nat.testBit_and, Bool.and_eq_true]
  rfl

theorem mem_names_iff {m : Mask l} {s : String} :
    s ∈ m.names ↔ ∃ flag : Mask l, (s, flag) ∈ flags l ∧ m.contains flag = true := by
  simp only [names, List.mem_map, List.mem_filter]
  constructor
  · rintro ⟨⟨name, flag⟩, ⟨hmem, hcontains⟩, rfl⟩
    exact ⟨flag, hmem, hcontains⟩
  · rintro ⟨flag, hmem, hcontains⟩
    exact ⟨(s, flag), ⟨hmem, hcontains⟩, rfl⟩

theorem lists_names (m : Mask l) : m.Lists m.names := by
  constructor
  · intro s
    exact mem_names_iff
  · rw [names, List.pairwise_map]
    apply ((pairwise_flags l).filter _).imp_of_mem
    intro f g hf hg hlt a b ha hb
    have hfirst := ha.unique (names_of_mem (List.mem_filter.1 hf).1)
    have hsecond := hb.unique (names_of_mem (List.mem_filter.1 hg).1)
    rw [hfirst, hsecond]
    exact hlt

/-- the names of a mask mean what its layer knows of it -/
theorem means_names (m : Mask l) : m.truncate.Means m.names := by
  constructor
  · intro s hs
    obtain ⟨flag, hmem, -⟩ := mem_names_iff.1 hs
    exact ⟨flag, names_of_mem hmem⟩
  · intro i
    rw [bit_truncate]
    constructor
    · rintro ⟨hbit, flag, hdeclared, hflag⟩
      obtain ⟨name, hmem⟩ := mem_declared_iff.1 hdeclared
      obtain ⟨j, hj⟩ := exists_bits_eq hmem
      -- the flag has no other bit than `i`
      obtain rfl := (bit_iff_of_bits_eq hj i).1 hflag
      have hcontains := (contains_iff_of_bits_eq hj m).2 hbit
      exact ⟨name, mem_names_iff.2 ⟨flag, hmem, hcontains⟩, flag, names_of_mem hmem, hflag⟩
    · rintro ⟨s, hs, other, hother, hbit⟩
      obtain ⟨flag, hmem, hcontains⟩ := mem_names_iff.1 hs
      obtain rfl := hother.unique (names_of_mem hmem)
      obtain ⟨j, hj⟩ := exists_bits_eq hmem
      obtain rfl := (bit_iff_of_bits_eq hj i).1 hbit
      exact ⟨(contains_iff_of_bits_eq hj m).1 hcontains, other, mem_declared_iff.2 ⟨s, hmem⟩, hbit⟩

/-- **Lists of names mean their union.** A list is read iff each of its names means a flag. The mask then has the bits
of these flags and no others, and any list of the same names is read as this mask, in whatever order and however often
they stand there. Otherwise the fault shows the first name that means no flag. The names of a mask stand in bit order,
and they are read as the mask without the bits that belong to no flag. -/
theorem ofNames_union (l : Layer) (names : List String) (b : UInt32) :
    ((∃ m, ofNames l names = .ok m) ↔ ∀ s ∈ names, ∃ flag : Mask l, Names s flag) ∧
      (∀ m, ofNames l names = .ok m →
        (∀ i, m.Bit i ↔ ∃ s ∈ names, ∃ flag : Mask l, Names s flag ∧ flag.Bit i) ∧
          ∀ other, (∀ s, s ∈ other ↔ s ∈ names) → ofNames l other = .ok m) ∧
      (∀ e, ofNames l names = .error e ↔ ∃ before s after, names = before ++ s :: after ∧
        (∀ t ∈ before, ∃ flag : Mask l, Names t flag) ∧ (∀ flag : Mask l, ¬Names s flag) ∧
        e = .badConfig (s!"unknown {l.title} flag: " ++ Text.trim s)) ∧
      (⟨b⟩ : Mask l).Lists (⟨b⟩ : Mask l).names ∧
      ofNames l (⟨b⟩ : Mask l).names = .ok (⟨b⟩ : Mask l).truncate ∧
      ∀ i, (⟨b⟩ : Mask l).truncate.Bit i ↔ b.toNat.testBit i = true ∧ ∃ flag ∈ declared l, flag.Bit i := by
  refine ⟨?_, ?_, ?_, lists_names _, ofNames_eq_ok.2 (means_names _), bit_truncate _⟩
  · constructor
    · rintro ⟨m, hm⟩
      exact (ofNames_eq_ok.1 hm).known
    · intro hknown
      exact exists_ofNames hknown
  · intro m hm
    have hmeans := ofNames_eq_ok.1 hm
    refine ⟨hmeans.bits, ?_⟩
    intro other hsame
    exact ofNames_eq_ok.2 (hmeans.of_same_names hsame)
  · intro e
    exact ofNames_eq_error

/-- names with blanks and in any case, in two orders; a name that no flag has; a mask with a bit that no flag has -/
theorem ofNames_union_replyTo :
    (ofNames .network [" publisherID", "ReplyTo", " publisherID"] = .ok ⟨0x28⟩ ∧
        ofNames .network ["ReplyTo", " publisherID"] = .ok ⟨0x28⟩) ∧
      ofNames .field ["rawdata", " Raw ", "Bogus"] = .error (.badConfig "unknown field content mask flag: Raw") ∧
      ofNames .dataSet (⟨0x80000014⟩ : DataSetMask).names = .ok ⟨0x14⟩ := by
  have hread : ofNames .network [" publisherID", "ReplyTo", " publisherID"] = .ok ⟨0x28⟩ := by
    rfl
  have hraw : Names "rawdata" FieldMask.rawData := ofName_eq_ok.1 rfl
  have hnone : ∀ flag : FieldMask, ¬Names " Raw " flag := by
    intro flag hflag
    cases ofName_eq_ok.2 hflag
  obtain ⟨-, hok, -⟩ := ofNames_union .network [" publisherID", "ReplyTo", " publisherID"] 0
  obtain ⟨-, -, herror, -⟩ := ofNames_union .field ["rawdata", " Raw ", "Bogus"] 0
  obtain ⟨-, -, -, -, hback, -⟩ := ofNames_union .dataSet [] 0x80000014
  refine ⟨⟨hread, (hok _ hread).2 _ ?_⟩, ?_, hback⟩
  · intro s
    simp only [List.mem_cons, List.not_mem_nil, or_false]
    rw [or_left_comm, or_self]
  · refine (herror _).2 ⟨["rawdata"], " Raw ", ["Bogus"], rfl, ?_, hnone, rfl⟩
    intro t ht
    rw [List.mem_singleton.1 ht]
    exact ⟨_, hraw⟩

end OpcPubSub.Mask
