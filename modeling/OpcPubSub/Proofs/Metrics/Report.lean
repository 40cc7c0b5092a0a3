/-
The report of a publisher's metrics.

After any run of updates (`Registry.after`) every family shows one sample for each label set that was touched, and a
histogram eleven, whatever the values of the labels hold: those of the bounds from 10 to 100000 microseconds, one for
all, the sum and the number. Main results:
- `Registry.keys_after`: the label sets of a family are those that its updates named.
- `Registry.under_text`: in the text of a report, what stands under the type line of a family.
- `Registry.series_apart`: the lines of a family are read as its samples, no two of them under one name and labels.

The flag that tells of draining has no labels, and the caller's own lines come after all of these, so neither is under
the type line of a family.
-/
import OpcPubSub.Proofs.Metrics.Histograms

namespace OpcPubSub.Metrics

/-! ## Families and updates -/

/-- the families of counters -/
inductive CounterName where
  | messagesPublished
  | bytesSent
  | encodeErrors
  | sendErrors
  | sampleErrors
deriving DecidableEq, Repr

/-- the families of a report -/
inductive FamilyName where
  | counter (name : CounterName)
  | groupsRunning
  | encodeDuration
deriving DecidableEq, Repr

namespace FamilyName

/-- all families, in the order of a report -/
def all : List FamilyName :=
  [counter .messagesPublished, counter .bytesSent, counter .encodeErrors, counter .sendErrors, counter .sampleErrors,
    groupsRunning, encodeDuration]

theorem mem_all (family : FamilyName) : family ∈ all := by
  cases family with
  | counter name => cases name <;> decide
  | groupsRunning => decide
  | encodeDuration => decide

def title : FamilyName → String
  | counter .messagesPublished => "uapub_messages_published_total"
  | counter .bytesSent => "uapub_bytes_sent_total"
  | counter .encodeErrors => "uapub_encode_errors_total"
  | counter .sendErrors => "uapub_send_errors_total"
  | counter .sampleErrors => "uapub_sample_errors_total"
  | groupsRunning => "uapub_writer_groups_running"
  | encodeDuration => "uapub_encode_duration_micros"

/-- how the type line of a family ends -/
def kind : FamilyName → String
  | counter _ => " counter"
  | groupsRunning => " gauge"
  | encodeDuration => " histogram"

/-- the line over the samples of a family -/
def typeLine (family : FamilyName) : String := "# TYPE " ++ family.title ++ family.kind

/-- the names under which samples are shown with just their own labels -/
def plainNames : List String := all.map title ++ [encodeDuration.title ++ "_sum", encodeDuration.title ++ "_count"]

theorem plainNames_identifiers : ∀ name ∈ plainNames, isIdentifier name = true := by
  decide

theorem plainNames_ne_bucket : ∀ name ∈ plainNames, name ≠ encodeDuration.title ++ "_bucket" := by
  decide

theorem clean_typeLine (family : FamilyName) :
    '\n' ∉ family.typeLine.toList ∧ family.typeLine.toList.head? = some '#' := by
  cases family with
  | counter name => cases name <;> decide
  | groupsRunning => decide
  | encodeDuration => decide

theorem nodup_typeLine : (all.map typeLine).Nodup := by
  decide

end FamilyName

/-- what can be done to the metrics of a publisher -/
inductive Update where
  | add (name : CounterName) (labels : List Label) (n : UInt64)
  | shift (labels : List Label) (n : Int64)
  | observe (labels : List Label) (time : Duration)
  | drain

namespace Update

/-- the family and the labels of the series that changes -/
def target : Update → Option (FamilyName × List Label)
  | add name labels _ => some (.counter name, labels)
  | shift labels _ => some (.groupsRunning, labels)
  | observe labels _ => some (.encodeDuration, labels)
  | drain => none

/-- the labels of the series that changes -/
def labels (u : Update) : List Label := u.target.elim [] Prod.snd

end Update

/-- under which labels a family was changed -/
def touched (family : FamilyName) (updates : List Update) : List (List Label) :=
  updates.filterMap fun u => u.target.bind fun t => if t.1 = family then some t.2 else none

namespace Registry

def counter (r : Registry) : CounterName → Counter
  | .messagesPublished => r.messagesPublished
  | .bytesSent => r.bytesSent
  | .encodeErrors => r.encodeErrors
  | .sendErrors => r.sendErrors
  | .sampleErrors => r.sampleErrors

def setCounter (r : Registry) (c : Counter) : CounterName → Registry
  | .messagesPublished => { r with messagesPublished := c }
  | .bytesSent => { r with bytesSent := c }
  | .encodeErrors => { r with encodeErrors := c }
  | .sendErrors => { r with sendErrors := c }
  | .sampleErrors => { r with sampleErrors := c }

def apply (r : Registry) : Update → Registry
  | .add name labels n => r.setCounter ((r.counter name).add labels n) name
  | .shift labels n => { r with groupsRunning := r.groupsRunning.add labels n }
  | .observe labels time => { r with encodeDuration := r.encodeDuration.observe labels time }
  | .drain => r.drain

/-- the metrics after these updates, one after the other -/
def after (updates : List Update) : Registry := updates.foldl apply {}

/-- the label sets of a family -/
def keys (r : Registry) : FamilyName → List LabelSet
  | .counter name => (r.counter name).keys
  | .groupsRunning => r.groupsRunning.keys
  | .encodeDuration => r.encodeDuration.keys

/-- what a family says of these labels -/
def samples (r : Registry) (family : FamilyName) (labels : List Label) : List Sample :=
  let sorted := (LabelSet.ofList labels).labels
  match family with
  | .counter name => [⟨family.title, sorted, ((r.counter name).get labels).toNat⟩]
  | .groupsRunning => [⟨family.title, sorted, (r.groupsRunning.get labels).toInt⟩]
  | .encodeDuration => (r.encodeDuration.cell labels).samples family.title sorted

/-! ## Label sets -/

@[simp]
theorem counter_setCounter (r : Registry) (c : Counter) (name other : CounterName) :
    (r.setCounter c name).counter other = if name = other then c else r.counter other := by
  cases name <;> cases other <;> rfl

@[simp]
theorem groupsRunning_setCounter (r : Registry) (c : Counter) (name : CounterName) :
    (r.setCounter c name).groupsRunning = r.groupsRunning := by
  cases name <;> rfl

@[simp]
theorem encodeDuration_setCounter (r : Registry) (c : Counter) (name : CounterName) :
    (r.setCounter c name).encodeDuration = r.encodeDuration := by
  cases name <;> rfl

/-- an update keeps the label sets of all families but the one it names -/
theorem keys_apply_of_ne (r : Registry) {u : Update} {family : FamilyName}
    (h : u.target.map Prod.fst ≠ some family) : (r.apply u).keys family = r.keys family := by
  cases u with
  | add name labels n =>
    cases family with
    | counter other =>
      have hname : name ≠ other := fun heq => h (heq ▸ rfl)
      rw [apply, keys, keys, counter_setCounter, if_neg hname]
    | groupsRunning => rw [apply, keys, keys, groupsRunning_setCounter]
    | encodeDuration => rw [apply, keys, keys, encodeDuration_setCounter]
  | shift labels n =>
    cases family with
    | counter other => cases other <;> rfl
    | groupsRunning => exact absurd rfl h
    | encodeDuration => rfl
  | observe labels time =>
    cases family with
    | counter other => cases other <;> rfl
    | groupsRunning => rfl
    | encodeDuration => exact absurd rfl h
  | drain =>
    cases family with
    | counter other => cases other <;> rfl
    | groupsRunning => rfl
    | encodeDuration => rfl

/-- an update touches one label set of the family it names -/
theorem keys_apply_of_eq {r : Registry} {u : Update} {family : FamilyName} {labels : List Label}
    (hu : u.target = some (family, labels)) {named : List (List Label)} (h : Keys (r.keys family) named) :
    Keys ((r.apply u).keys family) (named ++ [labels]) := by
  cases u with
  | add name labels n =>
    cases hu
    rw [apply, keys, counter_setCounter, if_pos rfl]
    exact h.modify labels 0 (· + n)
  | shift labels n =>
    cases hu
    exact h.modify labels 0 (· + n)
  | observe labels time =>
    cases hu
    exact h.modify labels .empty fun cell => cell.observe time.micros
  | drain => cases hu

theorem keys_apply {r : Registry} {updates : List Update} {family : FamilyName}
    (h : Keys (r.keys family) (touched family updates)) (u : Update) :
    Keys ((r.apply u).keys family) (touched family (updates ++ [u])) := by
  have hsnoc : touched family (updates ++ [u]) = touched family updates ++ touched family [u] := List.filterMap_append
  rw [hsnoc]
  by_cases hfamily : u.target.map Prod.fst = some family
  · obtain ⟨t, htarget, rfl⟩ := Option.map_eq_some_iff.1 hfamily
    have htouched : touched t.1 [u] = [t.2] := by simp [touched, htarget]
    rw [htouched]
    exact keys_apply_of_eq htarget h
  · have htouched : touched family [u] = [] := by
      cases htarget : u.target with
      | none => simp [touched, htarget]
      | some t =>
        have hne : t.1 ≠ family := by simpa [htarget] using hfamily
        simp [touched, htarget, hne]
    rw [htouched, List.append_nil, keys_apply_of_ne r hfamily]
    exact h

/-- **The label sets of a family are those its updates named.** -/
theorem keys_after (updates : List Update) (family : FamilyName) :
    Keys ((after updates).keys family) (touched family updates) := by
  induction updates using List.reverseRecOn with
  | nil =>
    cases family with
    | counter name => cases name <;> exact Keys.nil
    | groupsRunning => exact Keys.nil
    | encodeDuration => exact Keys.nil
  | append_singleton updates u ih =>
    rw [after, List.foldl_append]
    exact keys_apply ih u

/-- the names of labels in a family are names that were touched -/
theorem identifier_of_key {updates : List Update} (h : ∀ u ∈ updates, ∀ l ∈ u.labels, isIdentifier l.1 = true)
    {family : FamilyName} {key : LabelSet} (hkey : key ∈ (after updates).keys family) :
    ∀ l ∈ key.labels, isIdentifier l.1 = true := by
  obtain ⟨labels, hlabels, rfl⟩ := List.mem_map.1 (((keys_after updates family).mem_iff key).1 hkey)
  obtain ⟨u, hu, htarget⟩ := List.mem_filterMap.1 hlabels
  intro l hl
  refine h u hu l ?_
  obtain ⟨t, ht, htouched⟩ := Option.bind_eq_some_iff.1 htarget
  split_ifs at htouched with hfamily
  cases htouched
  rw [Update.labels, ht]
  exact (LabelSet.mem_ofList l t.2).1 hl

/-! ## Lines -/

/-- a family in a report: its type line, and the samples of its label sets -/
def sectionOf (r : Registry) (family : FamilyName) : Section :=
  ⟨family.typeLine, ((r.keys family).flatMap fun key => r.samples family key.labels).map Sample.line⟩

/-- the lines of a family -/
def familyLines (r : Registry) (family : FamilyName) : List String :=
  match family with
  | .counter name => (r.counter name).lines family.title
  | .groupsRunning => r.groupsRunning.lines family.title
  | .encodeDuration => r.encodeDuration.lines family.title

/-- a counter or a gauge prints one sample for each label set -/
theorem scalar_lines {α : Type} {family : Family α} {named : List (List Label)} (h : Keys family.keys named) (zero : α)
    (title : String) (value : α → ℤ) :
    (family.series.map fun entry => Family.sample title entry.1.text (Text.decimal (value entry.2))) =
      (family.keys.flatMap fun key => [(⟨title, (LabelSet.ofList key.labels).labels,
        value ((family.get? key.labels).getD zero)⟩ : Sample)]).map Sample.line := by
  rw [h.series_eq zero, ← List.map_eq_flatMap, List.map_map, List.map_map]
  refine List.map_congr_left fun key hkey => ?_
  rw [Function.comp_apply, Function.comp_apply, h.ofList_labels hkey]
  rfl

/-- a histogram prints the samples of each label set, one label set after the other -/
theorem histogram_lines {h : Histogram} {named : List (List Label)} (hkeys : Keys h.keys named) (title : String) :
    (h.series.flatMap fun entry => entry.2.lines title entry.1) =
      (h.keys.flatMap fun key => (h.cell key.labels).samples title (LabelSet.ofList key.labels).labels).map
        Sample.line := by
  rw [hkeys.series_eq .empty, List.flatMap_map, List.map_flatMap]
  refine List.flatMap_congr fun key hkey => ?_
  rw [hkeys.ofList_labels hkey, ← Distribution.lines_eq]
  rfl

theorem familyLines_after (updates : List Update) (family : FamilyName) :
    (after updates).familyLines family = ((after updates).sectionOf family).lines := by
  have hkeys := keys_after updates family
  cases family with
  | counter name => exact congrArg (_ :: ·) (scalar_lines hkeys 0 _ fun n => n.toNat)
  | groupsRunning => exact congrArg (_ :: ·) (scalar_lines hkeys 0 _ Int64.toInt)
  | encodeDuration => exact congrArg (_ :: ·) (histogram_lines hkeys _)

/-- a report is one section after the other, and then what has no labels -/
theorem text_after (updates : List Update) (extra : List (String × UInt64)) : ∃ rest,
    (after updates).text extra =
      String.join (((FamilyName.all.map (after updates).sectionOf).flatMap Section.lines ++
        ["# TYPE uapub_draining gauge"]).map (· ++ "\n")) ++ rest := by
  have hlines : (after updates).lines extra = FamilyName.all.flatMap (after updates).familyLines ++
      ["# TYPE uapub_draining gauge"] ++
      (("uapub_draining " ++ if (after updates).draining then "1" else "0") ::
        extra.map fun line => line.1 ++ " " ++ Text.decimal line.2.toNat) := by
    simp [lines, FamilyName.all, familyLines, FamilyName.title, counter]
  have hsections : FamilyName.all.flatMap (after updates).familyLines =
      (FamilyName.all.map (after updates).sectionOf).flatMap Section.lines := by
    rw [List.flatMap_map]
    exact List.flatMap_congr fun family _ => familyLines_after updates family
  rw [text, hlines, hsections, List.map_append, String.join_append]
  exact ⟨_, rfl⟩

/-- a sample has the labels it was touched with, in order; that of a bucket has its bound too -/
theorem sample_cases {r : Registry} {family : FamilyName} {labels : List Label} {s : Sample}
    (hs : s ∈ r.samples family labels) :
    (s.name ∈ FamilyName.plainNames ∧ s.labels = (LabelSet.ofList labels).labels) ∨
      (s.name = FamilyName.encodeDuration.title ++ "_bucket" ∧
        ∃ bound, s.labels = (LabelSet.ofList labels).labels ++ [("le", bound)]) := by
  have htitle : family.title ∈ FamilyName.plainNames := List.mem_append_left _ (List.mem_map_of_mem family.mem_all)
  cases family with
  | counter name =>
    rw [samples, List.mem_singleton] at hs
    subst hs
    exact Or.inl ⟨htitle, rfl⟩
  | groupsRunning =>
    rw [samples, List.mem_singleton] at hs
    subst hs
    exact Or.inl ⟨htitle, rfl⟩
  | encodeDuration =>
    rcases List.mem_append.1 hs with hs | hs
    · obtain ⟨b, -, rfl⟩ := List.mem_map.1 hs
      exact Or.inr ⟨rfl, _, rfl⟩
    · simp only [List.mem_cons, List.not_mem_nil, or_false] at hs
      rcases hs with rfl | rfl | rfl
      · exact Or.inr ⟨rfl, _, rfl⟩
      · exact Or.inl ⟨by simp [FamilyName.plainNames], rfl⟩
      · exact Or.inl ⟨by simp [FamilyName.plainNames], rfl⟩

/-- names of samples and of their labels are identifiers if those of the labels given are -/
theorem identifier_of_sample {r : Registry} {family : FamilyName} {labels : List Label}
    (h : ∀ l ∈ labels, isIdentifier l.1 = true) {s : Sample} (hs : s ∈ r.samples family labels) :
    isIdentifier s.name = true ∧ ∀ l ∈ s.labels, isIdentifier l.1 = true := by
  have hsorted : ∀ l ∈ (LabelSet.ofList labels).labels, isIdentifier l.1 = true :=
    fun l hl => h l ((LabelSet.mem_ofList l labels).1 hl)
  rcases sample_cases hs with ⟨hname, hlabels⟩ | ⟨hname, bound, hlabels⟩
  · rw [hlabels]
    exact ⟨FamilyName.plainNames_identifiers _ hname, hsorted⟩
  · rw [hname, hlabels, List.forall_mem_append]
    refine ⟨by decide, hsorted, ?_⟩
    rw [List.forall_mem_singleton]
    show isIdentifier "le" = true
    decide

/-- the same of all samples of a family -/
theorem identifier_after {updates : List Update} (h : ∀ u ∈ updates, ∀ l ∈ u.labels, isIdentifier l.1 = true)
    {family : FamilyName} {s : Sample}
    (hs : s ∈ ((after updates).keys family).flatMap fun key => (after updates).samples family key.labels) :
    isIdentifier s.name = true ∧ ∀ l ∈ s.labels, isIdentifier l.1 = true := by
  obtain ⟨key, hkey, hs⟩ := List.mem_flatMap.1 hs
  exact identifier_of_sample (identifier_of_key h hkey) hs

/-- **In the text of a report the samples of a family stand under its type line**, and nothing else does. -/
theorem under_text {updates : List Update} (h : ∀ u ∈ updates, ∀ l ∈ u.labels, isIdentifier l.1 = true)
    (extra : List (String × UInt64)) (family : FamilyName) :
    under family.typeLine ((after updates).text extra) = ((after updates).sectionOf family).samples := by
  obtain ⟨rest, htext⟩ := text_after updates extra
  have hclean : ∀ s ∈ FamilyName.all.map (after updates).sectionOf, s.Clean := by
    intro s hs
    obtain ⟨other, -, rfl⟩ := List.mem_map.1 hs
    refine ⟨other.clean_typeLine, fun line hline => ?_⟩
    obtain ⟨sample, hsample, rfl⟩ := List.mem_map.1 hline
    obtain ⟨hname, hlabels⟩ := identifier_after h hsample
    exact Sample.clean_line hname hlabels
  have hheaders : ((FamilyName.all.map (after updates).sectionOf).map Section.header).Nodup := by
    rw [List.map_map]
    exact FamilyName.nodup_typeLine
  have hnext : "# TYPE uapub_draining gauge".toList.head? = some '#' := by decide
  have hline : '\n' ∉ "# TYPE uapub_draining gauge".toList := by decide
  have hmem : (after updates).sectionOf family ∈ FamilyName.all.map (after updates).sectionOf :=
    List.mem_map_of_mem family.mem_all
  have hunder := under_sections hclean hheaders hnext hline rest hmem
  rw [htext]
  exact hunder

/-! ## No two series under one name -/

/-- the observations among the updates -/
def observations (updates : List Update) : Histogram.Observations :=
  updates.filterMap fun
    | .observe labels time => some (labels, time)
    | _ => none

theorem encodeDuration_after (updates : List Update) :
    (after updates).encodeDuration = Histogram.after (observations updates) := by
  induction updates using List.reverseRecOn with
  | nil => rfl
  | append_singleton updates u ih =>
    have hsnoc : observations (updates ++ [u]) = observations updates ++ observations [u] := List.filterMap_append
    rw [after, List.foldl_append, ← after, hsnoc, Histogram.after, List.foldl_append, ← Histogram.after, ← ih]
    cases u with
    | add name labels n => exact encodeDuration_setCounter _ _ name
    | shift labels n => rfl
    | observe labels time => rfl
    | drain => rfl

theorem bounds_after (updates : List Update) (labels : List Label) :
    ((after updates).encodeDuration.cell labels).buckets.map Prod.snd = bounds := by
  rw [encodeDuration_after, Histogram.cell_after, Distribution.tally, List.map_map]
  exact List.map_id _

end Registry

/-- the series of one label set: one for each bound, one without, the sum and the number -/
theorem Distribution.series_eq {d : Distribution} (h : d.buckets.map Prod.snd = bounds) (title : String)
    (labels : List Label) :
    (d.samples title labels).map (fun s => (s.name, s.labels)) =
      ["10", "50", "100", "500", "1000", "5000", "10000", "100000", "+Inf"].map
        (fun bound => (title ++ "_bucket", labels ++ [("le", bound)])) ++
      [(title ++ "_sum", labels), (title ++ "_count", labels)] := by
  have hshown : bounds.map (fun bound => Text.decimal bound.toNat) ++ ["+Inf"] =
      ["10", "50", "100", "500", "1000", "5000", "10000", "100000", "+Inf"] := by
    decide
  rw [← hshown, ← h]
  simp [samples]

/-- the samples of one label set have different names or labels -/
theorem Distribution.nodup_samples {d : Distribution} (h : d.buckets.map Prod.snd = bounds) (title : String)
    (labels : List Label) : ((d.samples title labels).map fun s => (s.name, s.labels)).Nodup := by
  have hbounds : ["10", "50", "100", "500", "1000", "5000", "10000", "100000", "+Inf"].Nodup := by
    decide
  have hinjective : Function.Injective fun bound : String => (title ++ "_bucket", labels ++ [("le", bound)]) := by
    intro a b hab
    simpa using hab
  rw [series_eq h, List.nodup_append]
  refine ⟨hbounds.map hinjective, by simp, ?_⟩
  intro series hseries other hother heq
  obtain ⟨bound, -, rfl⟩ := List.mem_map.1 hseries
  subst heq
  simp at hother

namespace Registry

/-- the labels under which a series was touched, from its name and the labels it is shown with -/
def owner (series : String × List Label) : List Label :=
  if series.1 = FamilyName.encodeDuration.title ++ "_bucket" then series.2.dropLast else series.2

theorem owner_of_sample {r : Registry} {family : FamilyName} {labels : List Label} {s : Sample}
    (hs : s ∈ r.samples family labels) : owner (s.name, s.labels) = (LabelSet.ofList labels).labels := by
  rcases sample_cases hs with ⟨hname, hlabels⟩ | ⟨hname, bound, hlabels⟩
  · rw [owner, if_neg (FamilyName.plainNames_ne_bucket _ hname), hlabels]
  · rw [owner, if_pos hname, hlabels, List.dropLast_concat]

/-- the samples of all label sets of a family have different names or labels -/
theorem nodup_samples (updates : List Update) (family : FamilyName) :
    ((((after updates).keys family).flatMap fun key => (after updates).samples family key.labels).map
      fun s => (s.name, s.labels)).Nodup := by
  have hkeys := keys_after updates family
  rw [List.map_flatMap, List.nodup_flatMap]
  constructor
  · intro key _
    cases family with
    | counter name => exact List.nodup_singleton _
    | groupsRunning => exact List.nodup_singleton _
    | encodeDuration => exact Distribution.nodup_samples (bounds_after updates key.labels) _ _
  · refine hkeys.nodup.imp_of_mem fun {a b} ha hb hne => ?_
    rw [Function.onFun_apply, List.disjoint_left]
    intro series hsa hsb
    obtain ⟨s, hs, rfl⟩ := List.mem_map.1 hsa
    obtain ⟨t, ht, heq⟩ := List.mem_map.1 hsb
    -- both samples tell the label set they belong to
    have howner := owner_of_sample hs
    rw [← heq, owner_of_sample ht, hkeys.ofList_labels ha, hkeys.ofList_labels hb] at howner
    exact hne (congrArg LabelSet.mk howner.symm)

end Registry

/-- label sets, each once in some order, that are all those that were touched -/
structure Enumerates (sets touched : List (List Label)) : Prop where
  apart : sets.Pairwise fun a b => ¬a.Perm b
  sound : ∀ a ∈ sets, ∃ b ∈ touched, a.Perm b
  complete : ∀ b ∈ touched, ∃ a ∈ sets, a.Perm b

theorem Keys.enumerates {keys : List LabelSet} {named : List (List Label)} (h : Keys keys named) :
    Enumerates (keys.map LabelSet.labels) named where
  apart := by
    rw [List.pairwise_map]
    refine h.nodup.imp_of_mem fun {a b} ha hb hne hperm => hne ?_
    rw [← h.ofList_labels ha, ← h.ofList_labels hb]
    exact LabelSet.ofList_eq_iff.2 hperm
  sound := by
    intro labels hlabels
    obtain ⟨key, hkey, rfl⟩ := List.mem_map.1 hlabels
    obtain ⟨named, hnamed, rfl⟩ := List.mem_map.1 ((h.mem_iff key).1 hkey)
    exact ⟨named, hnamed, LabelSet.perm_ofList named⟩
  complete := by
    intro labels hlabels
    have hkey := (h.mem_iff _).2 (List.mem_map_of_mem hlabels)
    exact ⟨_, List.mem_map_of_mem hkey, LabelSet.perm_ofList labels⟩

/-- lines that show these samples, one each, and are read as what they show, each under its own name and labels -/
structure Shows (lines : List String) (samples : List Sample) : Prop where
  printed : lines = samples.map Sample.line
  single : ∀ line ∈ lines, '\n' ∉ line.toList
  read : lines.map Sample.ofLine? = samples.map some
  apart : (samples.map fun s => (s.name, s.labels)).Nodup

namespace Registry

/-- **A report keeps series apart.** After any run of updates a family has one line for each label set that was touched,
a histogram eleven: one for each of its eight bounds, one for all and those of the sum and the number. Lines are read as
the labels that were given and what the series holds now, and label sets have one text only if they are the same. -/
theorem series_apart (updates : List Update) (h : ∀ u ∈ updates, ∀ l ∈ u.labels, isIdentifier l.1 = true)
    (extra : List (String × UInt64)) :
    (∀ family, ∃ sets, Enumerates sets (touched family updates) ∧
        Shows (under family.typeLine ((after updates).text extra)) (sets.flatMap ((after updates).samples family))) ∧
      (∀ labels,
        ((after updates).encodeDuration.cell labels).buckets.map Prod.snd =
            [10, 50, 100, 500, 1000, 5000, 10000, 100000] ∧
          ((after updates).samples .encodeDuration labels).map (fun s => (s.name, s.labels)) =
            ["10", "50", "100", "500", "1000", "5000", "10000", "100000", "+Inf"].map
              (fun bound => ("uapub_encode_duration_micros_bucket", (LabelSet.ofList labels).labels ++ [("le", bound)])) ++
            [("uapub_encode_duration_micros_sum", (LabelSet.ofList labels).labels),
              ("uapub_encode_duration_micros_count", (LabelSet.ofList labels).labels)]) ∧
      ∀ a b : List Label, (∀ l ∈ a, isIdentifier l.1 = true) → (∀ l ∈ b, isIdentifier l.1 = true) →
        ((LabelSet.ofList a).text = (LabelSet.ofList b).text ↔ a.Perm b) := by
  refine ⟨fun family => ?_, fun labels => ⟨bounds_after updates labels, ?_⟩, fun a b ha hb => ?_⟩
  · refine ⟨((after updates).keys family).map LabelSet.labels, (keys_after updates family).enumerates, ?_⟩
    rw [List.flatMap_map, under_text h extra family]
    refine ⟨rfl, ?_, ?_, nodup_samples updates family⟩
    · intro line hline
      obtain ⟨s, hs, rfl⟩ := List.mem_map.1 hline
      obtain ⟨hname, hlabels⟩ := identifier_after h hs
      exact (Sample.clean_line hname hlabels).1
    · rw [sectionOf, List.map_map]
      refine List.map_congr_left fun s hs => ?_
      obtain ⟨hname, hlabels⟩ := identifier_after h hs
      exact Sample.ofLine?_line hname hlabels
  · exact Distribution.series_eq (bounds_after updates labels) "uapub_encode_duration_micros" _
  · have hsorted : ∀ c : List Label, (∀ l ∈ c, isIdentifier l.1 = true) →
        ∀ l ∈ (LabelSet.ofList c).labels, isIdentifier l.1 = true :=
      fun c hc l hl => hc l ((LabelSet.mem_ofList l c).1 hl)
    rw [← LabelSet.ofList_eq_iff, LabelSet.mk.injEq]
    exact LabelSet.text_eq_iff (hsorted a ha) (hsorted b hb)

/-- one label that would have the text of two if values were shown as they are -/
def lookalike : List Label := groupLabels "a\",transport=\"b"

def lookalikes : List Update :=
  [.add .messagesPublished lookalike 1,
    .add .messagesPublished (transportLabels "a" "b") 2,
    .add .messagesPublished (transportLabels "a" "b").reverse 3,
    .observe (groupLabels "back\\slash\nfeed") ⟨40000⟩]

theorem lookalikes_apart :
    (∀ u ∈ lookalikes, ∀ l ∈ u.labels, isIdentifier l.1 = true) ∧
      (∃ sets, Enumerates sets (touched (.counter .messagesPublished) lookalikes) ∧
        Shows (under "# TYPE uapub_messages_published_total counter" ((after lookalikes).text []))
          (sets.flatMap ((after lookalikes).samples (.counter .messagesPublished)))) ∧
      ((after lookalikes).encodeDuration.cell (groupLabels "back\\slash\nfeed")).buckets.map Prod.snd =
        [10, 50, 100, 500, 1000, 5000, 10000, 100000] ∧
      ((LabelSet.ofList lookalike).text = (LabelSet.ofList (transportLabels "a" "b")).text ↔
        lookalike.Perm (transportLabels "a" "b")) :=
  ⟨by decide, (series_apart lookalikes (by decide) []).1 (.counter .messagesPublished),
    ((series_apart lookalikes (by decide) []).2.1 _).1,
    (series_apart lookalikes (by decide) []).2.2 _ _ (by decide) (by decide)⟩

end Registry

end OpcPubSub.Metrics
