import OmniSpacetimeDb.Proofs.LogFile

/-! A log file over the lifetimes of the layers that are created on it. The first
append of each creates the file anew, so only one of them can have written to it. -/

namespace OmniSpacetimeDb.Proofs.LogRestart
open Foundations Datastore LogRecovery LogFile Durability.ExampleDurability

/-- Nothing is on its way to the file any more. -/
def Done (layer : Layer) : Prop := layer.sending = [] ∧ layer.requests = [] ∧ current layer.writer = []

/-- A layer at its end, and the file that it was created on. -/
structure Lifetime where
  before : LogFile
  ended : Layer

/-- Layers one after another, each on the file that the last one left. -/
inductive History [BuildProfile] (start : LogFile) : List Lifetime → LogFile → Prop
  | nil : History start [] start
  | snoc {earlier : List Lifetime} {file : LogFile} {events : List Layer.Event} {layer : Layer}
      (history : History start earlier file) (run : Run Layer.Moves (.new file) events layer)
      (done : Done layer) : History start (earlier ++ [⟨file, layer⟩]) layer.file

def entriesOf (lifetimes : List Lifetime) : List LogEntry :=
  lifetimes.flatMap fun lifetime => lifetime.ended.written

/-- At the start and at the end of every lifetime but the first, the file has all
entries of the earlier ones, and then those of this one. -/
def Keeps (has : LogFile → List LogEntry → Prop) (lifetimes : List Lifetime) : Prop :=
  ∀ earlier current later, lifetimes = earlier ++ current :: later → earlier ≠ [] →
    has current.before (entriesOf earlier) ∧
      has current.ended.file (entriesOf earlier ++ current.ended.written)

def Lifetime.Idle (lifetime : Lifetime) : Prop := lifetime.ended.appended = []

/-- At most one lifetime appends anything. -/
def Once (lifetimes : List Lifetime) : Prop :=
  lifetimes.Pairwise fun earlier later => earlier.Idle ∨ later.Idle

def FirstAppends (lifetimes : List Lifetime) : Prop :=
  ∃ first later, lifetimes = first :: later ∧ ¬ first.Idle

section
variable {has : LogFile → List LogEntry → Prop} {lifetimes : List Lifetime} {last : Lifetime}

theorem entriesOf_snoc (lifetimes : List Lifetime) (last : Lifetime) :
    entriesOf (lifetimes ++ [last]) = entriesOf lifetimes ++ last.ended.written := by
  rw [entriesOf, List.flatMap_append, List.flatMap_singleton]
  rfl

theorem keeps_snoc_iff : Keeps has (lifetimes ++ [last]) ↔ Keeps has lifetimes ∧ (lifetimes ≠ [] →
    has last.before (entriesOf lifetimes) ∧
      has last.ended.file (entriesOf lifetimes ++ last.ended.written)) := by
  constructor
  · intro keeps
    refine ⟨?_, keeps lifetimes last [] rfl⟩
    rintro earlier current later rfl
    exact keeps earlier current (later ++ [last]) (by simp)
  · rintro ⟨keeps, final⟩ earlier current later split
    rcases List.eq_nil_or_concat later with rfl | ⟨between, end', rfl⟩
    · obtain ⟨rfl, same⟩ := List.append_inj' split rfl
      cases same
      exact final
    · rw [List.concat_eq_append, ← List.cons_append, ← List.append_assoc] at split
      obtain ⟨rfl, _⟩ := List.append_inj' split rfl
      exact keeps earlier current between rfl

theorem once_snoc_iff :
    Once (lifetimes ++ [last]) ↔ Once lifetimes ∧ ∀ lifetime ∈ lifetimes, lifetime.Idle ∨ last.Idle := by
  rw [Once, List.pairwise_append]
  simp [Once]

theorem firstAppends_snoc_iff (some_earlier : lifetimes ≠ []) :
    FirstAppends (lifetimes ++ [last]) ↔ FirstAppends lifetimes := by
  obtain ⟨first, later, rfl⟩ := List.exists_cons_of_ne_nil some_earlier
  constructor
  · rintro ⟨_, _, same, appends⟩
    cases same
    exact ⟨first, later, rfl, appends⟩
  · rintro ⟨_, _, same, appends⟩
    cases same
    exact ⟨first, later ++ [last], rfl, appends⟩

end

section
variable [BuildProfile] {lifetimes : List Lifetime} {start file : LogFile}

omit [BuildProfile] in
/-- The writer writes an entry before it can panic over its report. -/
theorem done_written_iff {layer : Layer} (consistent : Consistent file layer) (done : Done layer) :
    layer.written = [] ↔ layer.appended = [] := by
  obtain ⟨sending, requests, finished⟩ := done
  obtain ⟨conserved, _, contents, loses⟩ := consistent
  rw [sending, requests, finished] at conserved
  simp only [List.nil_append] at conserved
  constructor
  · intro unwritten
    by_cases none_lost : layer.lost = []
    · rw [unwritten, none_lost] at conserved
      exact List.perm_nil.mp conserved
    · rw [loses none_lost] at contents
      exact absurd unwritten contents.1
  · intro idle
    rw [idle] at conserved
    exact (List.append_eq_nil_iff.mp (List.nil_perm.mp conserved)).1

omit [BuildProfile] in
/-- What a lifetime does to the file: nothing, or what it wrote is all that is left there. -/
theorem done_file {layer : Layer} (consistent : Consistent file layer) (done : Done layer) :
    (layer.appended = [] → layer.written = [] ∧ layer.file = file) ∧
    (layer.appended ≠ [] → layer.written ≠ [] ∧ layer.file = some (bytes layer.written)) := by
  have written := done_written_iff consistent done
  have contents := consistent.contents
  refine ⟨?_, ?_⟩
  · intro idle
    rw [consistent.started.mpr idle] at contents
    exact ⟨contents.2, contents.1⟩
  · intro appended
    refine ⟨mt written.mp appended, ?_⟩
    cases writer : layer.writer with
    | absent => exact absurd (consistent.started.mp writer) appended
    | spawned =>
      rw [writer] at contents
      exact absurd (written.mp contents.2) appended
    | waiting =>
      rw [writer] at contents
      exact contents
    | reporting | panicked =>
      rw [writer] at contents
      exact contents.2
    | writing entry left =>
      have finished := done.2.2
      rw [writer] at finished
      cases finished

theorem history_idle (history : History start lifetimes file)
    (idle : ∀ lifetime ∈ lifetimes, lifetime.Idle) :
    file = start ∧ entriesOf lifetimes = [] := by
  induction history with
  | nil => exact ⟨rfl, rfl⟩
  | @snoc earlier file events layer history run done ih =>
    obtain ⟨unwritten, unchanged⟩ := (done_file (consistent_run run) done).1 (idle ⟨file, layer⟩ (by simp))
    obtain ⟨same, empty⟩ := ih fun lifetime member => idle lifetime (List.mem_append_left _ member)
    refine ⟨unchanged.trans same, ?_⟩
    rw [entriesOf_snoc, empty]
    exact unwritten

theorem history_active (history : History start lifetimes file) (once : Once lifetimes)
    (active : ∃ lifetime ∈ lifetimes, ¬ lifetime.Idle) :
    file = some (bytes (entriesOf lifetimes)) ∧ entriesOf lifetimes ≠ [] := by
  induction history with
  | nil =>
    obtain ⟨lifetime, member, _⟩ := active
    cases member
  | @snoc earlier file events layer history run done ih =>
    obtain ⟨idle, appends⟩ := done_file (consistent_run run) done
    obtain ⟨before, others⟩ := once_snoc_iff.mp once
    rw [entriesOf_snoc]
    by_cases final : layer.appended = []
    · obtain ⟨unwritten, unchanged⟩ := idle final
      obtain ⟨lifetime, member, busy⟩ := active
      have inside : lifetime ∈ earlier := by
        rcases List.mem_append.mp member with inside | rest
        · exact inside
        · obtain rfl := List.mem_singleton.mp rest
          exact absurd final busy
      simp only [unwritten, unchanged, List.append_nil]
      exact ih before ⟨lifetime, inside, busy⟩
    · have alone :=
        (history_idle history fun lifetime member => (others lifetime member).resolve_right final).2
      obtain ⟨written, holds⟩ := appends final
      rw [alone]
      exact ⟨holds, written⟩

theorem history_found {has : LogFile → List LogEntry → Prop} (history : History start lifetimes file)
    (once : Once lifetimes) (shape : has start [] ∨ FirstAppends lifetimes)
    (held : has (some (bytes (entriesOf lifetimes))) (entriesOf lifetimes)) :
    has file (entriesOf lifetimes) := by
  by_cases active : ∃ lifetime ∈ lifetimes, ¬ lifetime.Idle
  · exact (history_active history once active).1 ▸ held
  · have idle : ∀ lifetime ∈ lifetimes, lifetime.Idle := by
      intro lifetime member
      by_contra busy
      exact active ⟨lifetime, member, busy⟩
    obtain ⟨same, empty⟩ := history_idle history idle
    rw [same, empty]
    rcases shape with empty_log | ⟨first, later, rfl, busy⟩
    · exact empty_log
    · exact absurd (idle first List.mem_cons_self) busy

theorem history_single {has : LogFile → List LogEntry → Prop} (history : History start lifetimes file)
    (some_lifetime : lifetimes ≠ []) (short : lifetimes.length ≤ 1)
    (found : has file (entriesOf lifetimes)) :
    Once lifetimes ∧ (has start [] ∨ FirstAppends lifetimes) := by
  obtain ⟨first, rfl⟩ :=
    List.length_eq_one_iff.mp (Nat.le_antisymm short (List.length_pos_of_ne_nil some_lifetime))
  refine ⟨List.pairwise_singleton _ first, ?_⟩
  by_cases idle : first.Idle
  · obtain ⟨same, empty⟩ := history_idle history (by simpa using idle)
    rw [same, empty] at found
    exact .inl found
  · exact .inr ⟨first, [], rfl, idle⟩

/-- The entries are kept, by whatever one takes them to be there, as long as no
second lifetime appends, and none has to find an empty log that is not there. -/
theorem keeps_iff {has : LogFile → List LogEntry → Prop} {valid : LogEntry → Prop}
    (history : History start lifetimes file) (all : ∀ entry ∈ entriesOf lifetimes, valid entry)
    (held : ∀ entries, (∀ entry ∈ entries, valid entry) → has (some (bytes entries)) entries)
    (none_before : ∀ earlier entries, (∀ entry ∈ entries, valid entry) →
      has (some (bytes entries)) (earlier ++ entries) → earlier = []) :
    Keeps has lifetimes ↔ lifetimes.length ≤ 1 ∨
      Once lifetimes ∧ (has start [] ∨ FirstAppends lifetimes) := by
  induction history with
  | nil =>
    refine iff_of_true ?_ (.inl (Nat.zero_le 1))
    intro earlier current later split
    cases List.append_eq_nil_iff.mp split.symm with
    | intro _ impossible => cases impossible
  | @snoc earlier file events layer history run done ih =>
    rw [entriesOf_snoc] at all
    have before := fun entry member => all entry (List.mem_append_left _ member)
    have own : ∀ entry ∈ layer.written, valid entry :=
      fun entry member => all entry (List.mem_append_right _ member)
    obtain ⟨idle, active⟩ := done_file (consistent_run run) done
    rw [keeps_snoc_iff, ih before]
    by_cases some_earlier : earlier = []
    · subst earlier
      exact iff_of_true ⟨.inl (Nat.zero_le 1), fun contrary => absurd rfl contrary⟩ (.inl (Nat.le_refl 1))
    · rw [once_snoc_iff, firstAppends_snoc_iff some_earlier]
      constructor
      · intro ⟨shape, keeps⟩
        obtain ⟨found, left⟩ := keeps some_earlier
        obtain ⟨once, shape⟩ :=
          shape.elim (fun short => history_single history some_earlier short found) fun shape => shape
        refine .inr ⟨⟨once, ?_⟩, shape⟩
        intro lifetime member
        by_contra both
        obtain ⟨busy, appends⟩ := not_or.mp both
        rw [(active appends).2] at left
        exact (history_active history once ⟨lifetime, member, busy⟩).2 (none_before _ _ own left)
      · intro shape
        have long : ¬ (earlier ++ [Lifetime.mk file layer]).length ≤ 1 := by
          have some_length := List.length_pos_of_ne_nil some_earlier
          rw [List.length_append, List.length_singleton]
          omega
        obtain ⟨⟨once, others⟩, shape⟩ := shape.resolve_left long
        have found := history_found history once shape (held _ before)
        refine ⟨.inr ⟨once, shape⟩, fun _ => ⟨found, ?_⟩⟩
        by_cases final : layer.appended = []
        · simp only [idle final, List.append_nil]
          exact found
        · have alone :=
            (history_idle history fun lifetime member => (others lifetime member).resolve_right final).2
          simp only [alone, active final, List.nil_append]
          exact held _ own

def Stores (file : LogFile) (entries : List LogEntry) : Prop := file = some (bytes entries)

/-- The iterator yields these entries, and nothing after them. -/
def Reads (file : LogFile) (entries : List LogEntry) : Prop :=
  ∀ calls, iter file calls = some
    ((entries.map item).take calls ++ List.replicate (calls - entries.length) none)

theorem reads_bytes {entries : List LogEntry} (fits : ∀ entry ∈ entries, Fits entry.txData) :
    Reads (some (bytes entries)) entries := by
  have yields := Yields.part fits (show LogEntry.deserialize.run [] = .error .unexpectedEof from rfl)
  rw [List.append_nil] at yields
  exact yields

theorem none_read_before {earlier entries : List LogEntry} (fits : ∀ entry ∈ entries, Fits entry.txData)
    (reads : Reads (some (bytes entries)) (earlier ++ entries)) : earlier = [] := by
  by_contra some_earlier
  have both :=
    Option.some.inj
      ((reads_bytes fits (earlier ++ entries).length).symm.trans (reads (earlier ++ entries).length))
  rw [Nat.sub_self, List.replicate_zero, List.append_nil] at both
  have ended : none ∈ List.replicate ((earlier ++ entries).length - entries.length)
      (none : Option (UInt64 × TxData)) := by
    simpa using some_earlier
  have inside := List.mem_of_mem_take (both ▸ List.mem_append_right _ ended)
  obtain ⟨entry, _, impossible⟩ := List.mem_map.mp inside
  cases impossible

omit [BuildProfile] in
theorem none_stored_before {earlier entries : List LogEntry}
    (stores : Stores (some (bytes entries)) (earlier ++ entries)) :
    earlier = [] := by
  have same := Option.some.inj stores
  rw [bytes, bytes, List.flatMap_append, List.self_eq_append_left, List.flatMap_eq_nil_iff] at same
  apply List.eq_nil_iff_forall_not_mem.mpr
  intro entry member
  exact serialize_ne_nil entry (same entry member)

/-- Later lifetimes find all earlier entries exactly when at most one lifetime
appends any, and those before it find an empty log. This is so in the file and,
where the lengths fit their encoding, through the iterator. -/
theorem entries_survive_iff (history : History start lifetimes file) :
    (Keeps Stores lifetimes ↔ lifetimes.length ≤ 1 ∨
      Once lifetimes ∧ (Stores start [] ∨ FirstAppends lifetimes)) ∧
    ((∀ entry ∈ entriesOf lifetimes, Fits entry.txData) →
      (Keeps Reads lifetimes ↔ lifetimes.length ≤ 1 ∨
        Once lifetimes ∧ (Reads start [] ∨ FirstAppends lifetimes))) := by
  constructor
  · apply @keeps_iff _ _ _ _ _ (fun _ => True) history (fun _ _ => trivial)
    · exact fun _ _ => rfl
    · exact fun _ _ _ => none_stored_before
  · intro fits
    apply keeps_iff history fits
    · exact fun _ => reads_bytes
    · exact fun _ _ => none_read_before

end

def oneAppend (file : LogFile) (entry : LogEntry) : Layer :=
  delivered { (Layer.new file).append entry with file := some [], writer := .waiting } 0 entry

theorem oneAppend_run [BuildProfile] (file : LogFile) (entry : LogEntry) :
    Run Layer.Moves (.new file) ([] ++ [.append entry] ++ [.create] ++ delivery 0)
      (oneAppend file entry) := by
  have opened : Run Layer.Moves (.new file) ([] ++ [.append entry] ++ [.create])
      { (Layer.new file).append entry with file := some [], writer := .waiting } :=
        (Run.nil.snoc (.append entry)).snoc (.create rfl)
  apply opened.append
  exact (@deliver _ (fun _ _ => True) _ 0 entry (fun _ _ _ => trivial) rfl rfl rfl rfl rfl rfl).unguarded

theorem oneAppend_done (file : LogFile) (entry : LogEntry) : Done (oneAppend file entry) := ⟨rfl, rfl, rfl⟩

theorem entryAt_fits (txOffset : UInt64) : ∀ entry ∈ [entryAt txOffset], Fits entry.txData := by
  intro entry member
  obtain rfl := List.mem_singleton.mp member
  constructor <;> simp [entryAt, Short]

theorem entries_survive_iff_reopened : ∃ first,
    @History ⟨true⟩ none [⟨none, first⟩, ⟨first.file, .new first.file⟩] first.file ∧
    first.reported = some 0 ∧
    @iter ⟨true⟩ first.file 2 = some [some (0, ⟨[], [], []⟩), none] := by
  let : BuildProfile := ⟨true⟩
  have history : History none [⟨none, oneAppend none (entryAt 0)⟩,
      ⟨(oneAppend none (entryAt 0)).file, .new (oneAppend none (entryAt 0)).file⟩]
      (oneAppend none (entryAt 0)).file :=
    (History.nil.snoc (oneAppend_run none (entryAt 0)) (oneAppend_done none _)).snoc .nil ⟨rfl, rfl, rfl⟩
  have busy : ¬ Lifetime.Idle ⟨none, oneAppend none (entryAt 0)⟩ := by
    intro idle
    cases idle
  have keeps := ((entries_survive_iff history).2 (entryAt_fits 0)).mpr
    (.inr ⟨List.pairwise_pair.mpr (.inr rfl), .inr ⟨_, _, rfl, busy⟩⟩)
  exact ⟨_, history, rfl, (keeps [_] _ [] rfl (by simp)).1 2⟩

/-- The second of two lifetimes with one append each empties the file. -/
theorem second_append_truncates : ∃ first second,
    @History ⟨true⟩ none [⟨none, first⟩, ⟨first.file, second⟩] second.file ∧
    first.written = [entryAt 0] ∧ first.reported = some 0 ∧ first.file = some (entryAt 0).serialize ∧
    second.written = [entryAt 1] ∧ second.file = some (entryAt 1).serialize ∧
    @iter ⟨true⟩ second.file 2 = some [some (1, ⟨[], [], []⟩), none] ∧
    ¬ Keeps (@Reads ⟨true⟩) [⟨none, first⟩, ⟨first.file, second⟩] := by
  let : BuildProfile := ⟨true⟩
  have history := (History.nil.snoc (oneAppend_run none (entryAt 0)) (oneAppend_done none _)).snoc
    (oneAppend_run _ (entryAt 1)) (oneAppend_done _ _)
  refine ⟨_, _, history, rfl, rfl, rfl, rfl, rfl, reads_bytes (entryAt_fits 1) 2, ?_⟩
  intro keeps
  have nothing_before := none_read_before (entryAt_fits 1) (keeps [_] _ [] rfl (by simp)).2
  cases nothing_before

end OmniSpacetimeDb.Proofs.LogRestart
