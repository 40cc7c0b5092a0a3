/-
What the simulated source says for a writer of valid settings.

`Shows` is what a field has to show at a cycle, in whole numbers: it speaks of the field, of the interval of its group
and of the cycle, and of nothing else in the settings. `Sampled` is the data value that carries it, part by part. Main
results:
- `lookup_signals`: names of groups and ids of writers being distinct, a writer finds its own signals.
- `sample_shows`: a signal shows what its field says.
- `source_sampled`: hence the source has, for every writer at every cycle, a payload with the fields of the writer in
  their order, each with its own value.
-/
import OpcPubSub.Proofs.Config.Valid
import OpcPubSub.Proofs.Message.Payload
import OpcPubSub.Proofs.Metrics.Series
import OpcPubSub.Publisher.Signal

namespace OpcPubSub

/-! ## What fields show -/

/-- the value of a field at a cycle of a group with this interval -/
inductive Config.FieldSettings.Shows (f : Config.FieldSettings) (intervalMs cycle : UInt64) : Scalar → Prop where
  /-- the number of the cycle, as far as 32 bits go -/
  | counter (kind : f.signal = .counter) (n : Whole .uint32) (count : n.val = (cycle.toNat % 2 ^ 32 : ℕ)) :
      Shows f intervalMs cycle (.int .uint32 n)
  /-- whether the cycle is odd -/
  | toggle (kind : f.signal = .toggle) : Shows f intervalMs cycle (.boolean (decide (cycle.toNat % 2 = 1)))
  | constant (kind : f.signal = .constant) (x : Float) (set : f.value = some x) : Shows f intervalMs cycle (.double x)
  | text (kind : f.signal = .text) (t : String) (set : f.text = some t) : Shows f intervalMs cycle (.string t)
  /-- the sine at the time since the cycle 0, which is kept in 64 bits, in the current period -/
  | sine (kind : f.signal = .sine) (elapsed : UInt64)
      (time : elapsed.toNat = cycle.toNat * intervalMs.toNat % 2 ^ 64 % f.periodMs.toNat) :
      Shows f intervalMs cycle
        (.double (f.amplitude * (elapsed.toFloat / f.periodMs.toFloat * Float.ofBits 0x401921FB54442D18).sin))

/-- the sample of a field at a cycle: the value that the field shows, good, captured and served `now` -/
structure Config.FieldSettings.Sampled (f : Config.FieldSettings) (intervalMs cycle : UInt64) (now : DateTime)
    (v : DataValue) : Prop where
  value : ∃ x, f.Shows intervalMs cycle x ∧ v.value = .scalar x
  status : v.status = some ⟨0⟩
  sourceTimestamp : v.sourceTimestamp = some now
  sourcePicoseconds : v.sourcePicoseconds = none
  serverTimestamp : v.serverTimestamp = some now
  serverPicoseconds : v.serverPicoseconds = none

/-- the payload of a writer at a cycle: its fields in their order, each with its own sample -/
def Config.WriterSettings.Sampled (w : Config.WriterSettings) (intervalMs cycle : UInt64) (now : DateTime)
    (p : Payload) : Prop :=
  List.Forall₂ (fun f x => x.1 = f.name ∧ f.Sampled intervalMs cycle now x.2) w.fields p.fields

/-- the simulated source, where each writer is sampled at a time of its own -/
def Simulation.clocked (s : Config.Settings) (clock : UInt16 → DateTime) : DataSource :=
  fun group id cycle => source s (clock id) group id cycle

/-! ## Signals -/

namespace Signal

theorem max_one {n : UInt64} (h : n ≠ 0) : max n 1 = n := by
  show (if n ≤ 1 then 1 else n) = n
  split_ifs with hle
  · rw [← UInt64.toNat_inj]
    have hpositive : n.toNat ≠ 0 := fun h0 => h (UInt64.toNat_inj.1 h0)
    have hatMost : n.toNat ≤ 1 := hle
    show 1 = n.toNat
    omega
  · rfl

/-- **A signal shows what its field says.** -/
theorem sample_shows {f : Config.FieldSettings} (h : f.Valid) (intervalMs cycle : UInt64) :
    f.Shows intervalMs cycle ((ofField intervalMs f).sample cycle) := by
  cases hs : f.signal with
  | counter =>
    have hsample : (ofField intervalMs f).sample cycle = .int .uint32 (.ofUInt32 cycle.toUInt32) := by
      simp only [sample, ofField, hs]
    rw [hsample]
    refine .counter hs _ ?_
    show ((cycle.toUInt32.toNat : ℕ) : ℤ) = _
    rw [UInt64.toNat_toUInt32]
  | toggle =>
    have hsample : (ofField intervalMs f).sample cycle = .boolean (cycle % 2 == 1) := by
      simp only [sample, ofField, hs]
    have hodd : (cycle % 2 == 1) = decide (cycle.toNat % 2 = 1) := by
      rw [Bool.eq_iff_iff, beq_iff_eq, decide_eq_true_iff, ← UInt64.toNat_inj]
      rfl
    rw [hsample, hodd]
    exact .toggle hs
  | constant =>
    obtain ⟨x, hx⟩ := h.value hs
    have hsample : (ofField intervalMs f).sample cycle = .double x := by
      simp only [sample, ofField, hs, hx, Option.getD_some]
    rw [hsample]
    exact .constant hs x hx
  | text =>
    obtain ⟨t, ht⟩ := h.text hs
    have hsample : (ofField intervalMs f).sample cycle = .string t := by
      simp only [sample, ofField, hs, ht, Option.getD_some]
    rw [hsample]
    exact .text hs t ht
  | sine =>
    have hperiod := max_one (h.period hs)
    have hsample : (ofField intervalMs f).sample cycle =
        .double (f.amplitude * ((cycle * intervalMs % f.periodMs).toFloat / f.periodMs.toFloat * turn).sin) := by
      simp only [sample, elapsedMs, ofField, hs, hperiod]
    rw [hsample]
    refine .sine hs _ ?_
    rw [UInt64.toNat_mod, UInt64.toNat_mul]

/-- the value of a signal is a sample of its field -/
theorem value_sampled {f : Config.FieldSettings} (h : f.Valid) (intervalMs cycle : UInt64) (now : DateTime) :
    f.Sampled intervalMs cycle now (Simulation.value now ((ofField intervalMs f).sample cycle)) where
  value := ⟨_, sample_shows h intervalMs cycle, rfl⟩
  status := rfl
  sourceTimestamp := rfl
  sourcePicoseconds := rfl
  serverTimestamp := rfl
  serverPicoseconds := rfl

end Signal

/-! ## The source -/

namespace Config.Settings.Valid

variable {s : Config.Settings}

theorem nodup_signals (h : s.Valid) : (s.signals.map Prod.fst).Nodup := by
  rw [signals, List.map_flatMap, List.nodup_flatMap]
  constructor
  · intro g hg
    rw [List.map_map]
    have hids := (h.groups g hg).distinct
    exact List.Nodup.of_map Prod.snd (by rw [List.map_map]; exact hids)
  · refine (List.pairwise_map.1 h.distinct).imp ?_
    intro g g' hne key hkey hkey'
    simp only [List.map_map, List.mem_map, Function.comp_apply] at hkey hkey'
    obtain ⟨w, -, rfl⟩ := hkey
    obtain ⟨w', -, heq⟩ := hkey'
    exact hne (congrArg Prod.fst heq).symm

/-- **A writer finds its own signals**, whatever else the settings declare. -/
theorem lookup_signals (h : s.Valid) {g : Config.GroupSettings} (hg : g ∈ s.groups) {w : Config.WriterSettings}
    (hw : w ∈ g.writers) :
    s.signals.reverse.lookup (g.name, w.id) = some (w.fields.map (Signal.ofField g.intervalMs)) := by
  apply lookup_of_mem
  · rw [List.map_reverse, List.nodup_reverse]
    exact h.nodup_signals
  · rw [List.mem_reverse, signals, List.mem_flatMap]
    exact ⟨g, hg, List.mem_map_of_mem hw⟩

/-- **The source has a payload for every writer at every cycle**, and it is the writer's own. -/
theorem source_sampled (h : s.Valid) {g : Config.GroupSettings} (hg : g ∈ s.groups) {w : Config.WriterSettings}
    (hw : w ∈ g.writers) (now : DateTime) (cycle : UInt64) :
    ∃ p, Simulation.source s now g.name w.id cycle = .ok p ∧ w.Sampled g.intervalMs cycle now p := by
  have hvalid := (h.groups g hg).writers w hw
  let field (f : Config.FieldSettings) : String × DataValue :=
    (f.name, Simulation.value now ((Signal.ofField g.intervalMs f).sample cycle))
  have hnames : ((w.fields.map field).map Prod.fst).Nodup := by
    rw [List.map_map]
    exact hvalid.distinct
  refine ⟨⟨w.fields.map field, hnames⟩, ?_, ?_⟩
  · rw [Simulation.source, h.lookup_signals hg hw]
    show Payload.ofPairs ((w.fields.map _).map _) = _
    rw [List.map_map]
    exact Payload.ofPairs_fields ⟨w.fields.map field, hnames⟩
  · rw [WriterSettings.Sampled, List.forall₂_map_right_iff, List.forall₂_same]
    intro f hf
    exact ⟨rfl, Signal.value_sampled (hvalid.fields f hf) g.intervalMs cycle now⟩

end Config.Settings.Valid

end OpcPubSub
