import CoverageMatrix.Proofs.Data.Bounds
import CoverageMatrix.Toml.Document
import Mathlib.Data.List.Nodup

/-!
Whatever document is read, it has no larger numbers than the format allows, and no key twice in a
table.
-/
namespace CoverageMatrix

namespace Toml

/-! ## Scalars -/

theorem bounded?_regular {n : Int} {d : Data} (h : bounded? n = some d) : d.Regular := by
  rw [bounded?] at h
  split at h
  · next bounds =>
    cases h
    exact .int bounds.2
  · cases h

theorem integer?_regular {cs : List Char} {d : Data} (h : integer? cs = some d) : d.Regular := by
  unfold integer? at h
  split at h
  all_goals
    obtain ⟨ds, -, regular⟩ := Option.bind_eq_some_iff.1 h
    exact bounded?_regular regular

theorem eq_float_of_finite {x : Text.Binary64} {d : Data}
    (h : (match x with
      | .infinite false => none
      | x => some (.float x)) = some d) : ∃ x, d = .float x := by
  split at h
  · cases h
  · exact ⟨_, (Option.some.inj h).symm⟩

theorem float?_eq {cs : List Char} {d : Data} (h : float? cs = some d) : ∃ x, d = .float x := by
  unfold float? at h
  dsimp only at h
  split at h
  · exact ⟨_, (Option.some.inj h).symm⟩
  split at h
  · exact ⟨_, (Option.some.inj h).symm⟩
  obtain ⟨whole, -, h⟩ := Option.bind_eq_some_iff.1 h
  -- the fraction, then the exponent, each of which may be left out
  split at h
  · obtain ⟨fraction, -, h⟩ := Option.bind_eq_some_iff.1 h
    obtain ⟨_, -, h⟩ := Option.bind_eq_some_iff.1 h
    split at h
    · obtain ⟨_, -, h⟩ := Option.bind_eq_some_iff.1 h
      exact eq_float_of_finite h
    · obtain ⟨_, -, h⟩ := Option.bind_eq_some_iff.1 h
      obtain ⟨_, -, h⟩ := Option.bind_eq_some_iff.1 h
      exact eq_float_of_finite h
  · split at h
    · cases h
    · obtain ⟨_, -, h⟩ := Option.bind_eq_some_iff.1 h
      split at h
      · obtain ⟨_, -, h⟩ := Option.bind_eq_some_iff.1 h
        exact eq_float_of_finite h
      · obtain ⟨_, -, h⟩ := Option.bind_eq_some_iff.1 h
        obtain ⟨_, -, h⟩ := Option.bind_eq_some_iff.1 h
        exact eq_float_of_finite h

theorem moment?_eq {cs : List Char} {d : Data} (h : moment? cs = some d) : ∃ s, d = .moment s := by
  unfold moment? at h
  split at h
  · exact ⟨_, (Option.some.inj h).symm⟩
  · obtain ⟨_, -, h⟩ := Option.bind_eq_some_iff.1 h
    obtain ⟨time, -, h⟩ := Option.bind_eq_some_iff.1 h
    obtain ⟨offset, -, h⟩ := Option.bind_eq_some_iff.1 h
    exact ⟨_, (Option.some.inj h).symm⟩
  · split at h
    · exact ⟨_, (Option.some.inj h).symm⟩
    · cases h

theorem moment?_regular {cs : List Char} {d : Data} (h : moment? cs = some d) : d.Regular := by
  obtain ⟨s, rfl⟩ := moment?_eq h
  exact .moment s

theorem token?_regular {cs : List Char} {d : Data} (h : token? cs = some d) : d.Regular := by
  rw [token?] at h
  split at h
  · cases h
    exact .bool true
  · split at h
    · cases h
      exact .bool false
    · rcases Option.or_eq_some_iff.1 h with moment | ⟨-, number⟩
      · exact moment?_regular moment
      · rcases Option.or_eq_some_iff.1 number with float | ⟨-, whole⟩
        · obtain ⟨x, rfl⟩ := float?_eq float
          exact .float x
        · exact integer?_regular whole

theorem readScalar_regular {cs rest : List Char} {d : Data} (h : readScalar cs = some (d, rest)) :
    d.Regular := by
  have token {o : Option Data} {left : List Char}
      (h : o.map (fun d => (d, left)) = some (d, rest)) : o = some d := by
    obtain ⟨d', found, same⟩ := Option.map_eq_some_iff.1 h
    rw [found, (Prod.mk.inj same).1]
  unfold readScalar at h
  dsimp only at h
  split at h
  · split at h
    · exact moment?_regular (token h)
    · exact token?_regular (token h)
  · exact token?_regular (token h)

/-! ## Tables under construction -/

def Entries.keys (es : Entries) : List String :=
  es.map (·.1)

/-- Entries that make regular data. -/
structure EntriesRegular (es : Entries) : Prop where
  keys : es.keys.Nodup
  each : ∀ e ∈ es, e.2.toData.Regular

theorem keys_entriesToData (es : Entries) : (entriesToData es).map (·.1) = es.keys := by
  induction es with
  | nil => rfl
  | cons e es ih =>
    rw [entriesToData, List.map_cons, ih]
    rfl

theorem mem_entriesToData {es : Entries} {e : String × Data} (mem : e ∈ entriesToData es) :
    ∃ e' ∈ es, e.2 = e'.2.toData := by
  induction es with
  | nil => cases mem
  | cons e' es ih =>
    obtain ⟨k, i⟩ := e'
    rw [entriesToData] at mem
    rcases List.mem_cons.1 mem with rfl | mem
    · exact ⟨(k, i), List.mem_cons_self, rfl⟩
    · obtain ⟨e', among, same⟩ := ih mem
      exact ⟨e', List.mem_cons_of_mem _ among, same⟩

theorem mem_entriesToData_of_mem {es : Entries} {e : String × Item} (mem : e ∈ es) :
    (e.1, e.2.toData) ∈ entriesToData es := by
  induction es with
  | nil => cases mem
  | cons e' es ih =>
    rw [entriesToData]
    rcases List.mem_cons.1 mem with rfl | mem
    · exact List.mem_cons_self
    · exact List.mem_cons_of_mem _ (ih mem)

theorem regular_table_iff (origin : Origin) {es : Entries} :
    (Item.table origin es).toData.Regular ↔ EntriesRegular es := by
  rw [Item.toData]
  constructor
  · intro regular
    cases regular with
    | table keys each =>
      rw [keys_entriesToData] at keys
      exact ⟨keys, fun e mem => each _ (mem_entriesToData_of_mem mem)⟩
  · intro regular
    refine .table ?_ fun e mem => ?_
    · rw [keys_entriesToData]
      exact regular.keys
    · obtain ⟨e', among, same⟩ := mem_entriesToData mem
      exact same ▸ regular.each e' among

theorem mem_tablesToData {ts : List Entries} {d : Data} :
    d ∈ tablesToData ts ↔ ∃ t ∈ ts, d = .table (entriesToData t) := by
  induction ts with
  | nil => simp [tablesToData]
  | cons t ts ih => simp [tablesToData, ih]

theorem regular_tables_iff {ts : List Entries} :
    (Item.tables ts).toData.Regular ↔ ∀ t ∈ ts, EntriesRegular t := by
  have table (t : Entries) : (Data.table (entriesToData t)).Regular ↔ EntriesRegular t :=
    regular_table_iff .header
  rw [Item.toData]
  constructor
  · intro regular
    cases regular with
    | list each => exact fun t mem => (table t).1 (each _ (mem_tablesToData.2 ⟨t, mem, rfl⟩))
  · intro each
    refine .list fun d mem => ?_
    obtain ⟨t, among, rfl⟩ := mem_tablesToData.1 mem
    exact (table t).2 (each t among)

theorem EntriesRegular.nil : EntriesRegular [] :=
  ⟨List.nodup_nil, fun _ mem => absurd mem List.not_mem_nil⟩

/-- A change under a key leaves the other keys in their places. -/
theorem keys_update {k : String} {f : Option Item → Option Item} {es es' : Entries}
    (h : es.update k f = some es') :
    es'.keys = if k ∈ es.keys then es.keys else es.keys ++ [k] := by
  induction es generalizing es' with
  | nil =>
    obtain ⟨i, -, rfl⟩ := Option.map_eq_some_iff.1 h
    rfl
  | cons e es ih =>
    obtain ⟨k', i⟩ := e
    have keys : Entries.keys ((k', i) :: es) = k' :: Entries.keys es := rfl
    rw [Entries.update] at h
    split at h
    · next same =>
      obtain ⟨i', -, rfl⟩ := Option.map_eq_some_iff.1 h
      rw [keys, if_pos (List.mem_cons.2 (.inl same))]
      rfl
    · next other =>
      obtain ⟨rest, made, rfl⟩ := Option.map_eq_some_iff.1 h
      have later : Entries.keys ((k', i) :: rest) = k' :: Entries.keys rest := rfl
      rw [later, ih made, keys]
      by_cases mem : k ∈ Entries.keys es
      · rw [if_pos mem, if_pos (List.mem_cons_of_mem _ mem)]
      · have new : k ∉ k' :: Entries.keys es := fun old => (List.mem_cons.1 old).elim other mem
        rw [if_neg mem, if_neg new, List.cons_append]

theorem nodup_update {k : String} {f : Option Item → Option Item} {es es' : Entries}
    (keys : es.keys.Nodup) (h : es.update k f = some es') : es'.keys.Nodup := by
  rw [keys_update h]
  split
  · exact keys
  · next new =>
    exact List.Nodup.append keys (List.nodup_singleton k) (List.disjoint_singleton.2 new)

theorem each_update {k : String} {f : Option Item → Option Item} {es es' : Entries}
    (each : ∀ e ∈ es, e.2.toData.Regular)
    (keeps : ∀ o i, (∀ i ∈ o, i.toData.Regular) → f o = some i → i.toData.Regular)
    (h : es.update k f = some es') : ∀ e ∈ es', e.2.toData.Regular := by
  induction es generalizing es' with
  | nil =>
    obtain ⟨i, made, rfl⟩ := Option.map_eq_some_iff.1 h
    exact List.forall_mem_singleton.2 (keeps none i (fun _ mem => by cases mem) made)
  | cons e es ih =>
    obtain ⟨k', i⟩ := e
    obtain ⟨first, later⟩ := List.forall_mem_cons.1 each
    rw [Entries.update] at h
    split at h
    · obtain ⟨i', made, rfl⟩ := Option.map_eq_some_iff.1 h
      have before : ∀ j ∈ some i, j.toData.Regular := fun j same => Option.some.inj same ▸ first
      exact List.forall_mem_cons.2 ⟨keeps (some i) i' before made, later⟩
    · obtain ⟨rest, made, rfl⟩ := Option.map_eq_some_iff.1 h
      exact List.forall_mem_cons.2 ⟨first, ih later made⟩

theorem EntriesRegular.update {k : String} {f : Option Item → Option Item} {es es' : Entries}
    (regular : EntriesRegular es)
    (keeps : ∀ o i, (∀ i ∈ o, i.toData.Regular) → f o = some i → i.toData.Regular)
    (h : es.update k f = some es') : EntriesRegular es' :=
  ⟨nodup_update regular.keys h, each_update regular.each keeps h⟩

theorem onLast_all {α : Type} {P : α → Prop} {f : α → Option α} {l l' : List α}
    (all : ∀ a ∈ l, P a) (keeps : ∀ a b, P a → f a = some b → P b) (h : onLast f l = some l') :
    ∀ a ∈ l', P a := by
  induction l generalizing l' with
  | nil => cases h
  | cons a l ih =>
    obtain ⟨first, later⟩ := List.forall_mem_cons.1 all
    cases l with
    | nil =>
      obtain ⟨b, made, rfl⟩ := Option.map_eq_some_iff.1 h
      exact List.forall_mem_singleton.2 (keeps a b first made)
    | cons a' l =>
      obtain ⟨rest, made, rfl⟩ := Option.map_eq_some_iff.1 h
      exact List.forall_mem_cons.2 ⟨first, ih later made⟩

/-- A change of entries that brings in no irregular data. -/
def Keeps (f : Entries → Option Entries) : Prop :=
  ∀ es es' : Entries, EntriesRegular es → f es = some es' → EntriesRegular es'

namespace Keeps

variable {f : Entries → Option Entries} (keeps : Keeps f)
include keeps

theorem fresh {origin : Origin} {i : Item} (made : (f []).map (Item.table origin) = some i) :
    i.toData.Regular := by
  obtain ⟨sub, inner, rfl⟩ := Option.map_eq_some_iff.1 made
  exact (regular_table_iff _).2 (keeps _ _ .nil inner)

theorem table {origin : Origin} {sub : Entries} {i : Item}
    (before : (Item.table origin sub).toData.Regular)
    (made : (f sub).map (Item.table origin) = some i) : i.toData.Regular := by
  obtain ⟨sub', inner, rfl⟩ := Option.map_eq_some_iff.1 made
  exact (regular_table_iff _).2 (keeps _ _ ((regular_table_iff _).1 before) inner)

theorem tables {ts : List Entries} {i : Item} (before : (Item.tables ts).toData.Regular)
    (made : (onLast f ts).map Item.tables = some i) : i.toData.Regular := by
  obtain ⟨ts', inner, rfl⟩ := Option.map_eq_some_iff.1 made
  exact regular_tables_iff.2 (onLast_all (regular_tables_iff.1 before) keeps inner)

theorem within (path : List String) : Keeps (Entries.within f path) := by
  induction path with
  | nil => exact keeps
  | cons k path ih =>
    intro es es' regular h
    refine regular.update (fun o i before made => ?_) h
    match o with
    | none => exact ih.fresh made
    | some (.table origin sub) => exact ih.table (before _ rfl) made
    | some (.tables ts) => exact ih.tables (before _ rfl) made
    | some (.value _) => cases made

end Keeps

theorem keeps_putValue {d : Data} (number : d.Regular) :
    (path : List String) → Keeps (Entries.putValue d path)
  | [] => by
    intro es es' _ h
    cases h
  | [k] => by
    intro es es' regular h
    refine regular.update (fun o i _ made => ?_) h
    match o with
    | none =>
      cases made
      exact number
    | some _ => cases made
  | k :: k' :: path => by
    intro es es' regular h
    have ih := keeps_putValue number (k' :: path)
    refine regular.update (fun o i before made => ?_) h
    match o with
    | none => exact ih.fresh made
    | some (.table .dotted sub) => exact ih.table (before _ rfl) made
    | some (.table .implied sub) =>
      dsimp only at made
      split at made
      · cases made
      · exact ih.table (before _ rfl) made
    | some (.tables ts) =>
      dsimp only at made
      split at made
      · cases made
      · exact ih.tables (before _ rfl) made
    | some (.table .header _) => cases made
    | some (.value _) => cases made

/-- A new entry at the end. -/
theorem EntriesRegular.concat {es : Entries} {k : String} {i : Item} (regular : EntriesRegular es)
    (new : k ∉ es.keys) (last : i.toData.Regular) : EntriesRegular (es ++ [(k, i)]) where
  keys := by
    rw [Entries.keys, List.map_append]
    refine List.Nodup.append regular.keys (List.nodup_singleton k) ?_
    exact List.disjoint_singleton.2 new
  each e mem := by
    rcases List.mem_append.1 mem with mem | mem
    · exact regular.each e mem
    · rw [List.mem_singleton.1 mem]
      exact last

theorem EntriesRegular.filter {es : Entries} (regular : EntriesRegular es)
    (p : String × Item → Bool) : EntriesRegular (es.filter p) where
  keys := regular.keys.sublist (List.filter_sublist.map _)
  each e mem := regular.each e (List.mem_filter.1 mem).1

theorem keeps_openTable (k : String) : Keeps (Entries.openTable k) := by
  intro es es' regular h
  rw [Entries.openTable] at h
  split at h
  · next missing =>
    cases h
    refine regular.concat (fun mem => ?_) ((regular_table_iff _).2 .nil)
    obtain ⟨e, among, rfl⟩ := List.mem_map.1 mem
    simpa using List.lookup_eq_none_iff.1 missing e among
  · next sub found =>
    cases h
    have among : (k, Item.table .implied sub) ∈ es := by
      obtain ⟨before, after, rfl, -⟩ := List.lookup_eq_some_iff.1 found
      exact List.mem_append_right _ List.mem_cons_self
    have inner := (regular_table_iff _).1 (regular.each _ among)
    refine (regular.filter _).concat (fun mem => ?_) ((regular_table_iff _).2 inner)
    obtain ⟨e, kept, same⟩ := List.mem_map.1 mem
    simpa [same] using (List.mem_filter.1 kept).2
  · cases h

theorem keeps_openListTable (k : String) : Keeps (Entries.openListTable k) := by
  intro es es' regular h
  refine regular.update (fun o i before made => ?_) h
  match o with
  | none =>
    cases made
    exact regular_tables_iff.2 fun t mem => List.mem_singleton.1 mem ▸ .nil
  | some (.tables ts) =>
    cases made
    refine regular_tables_iff.2 fun t mem => ?_
    rcases List.mem_append.1 mem with mem | mem
    · exact regular_tables_iff.1 (before _ rfl) t mem
    · exact List.mem_singleton.1 mem ▸ .nil
  | some (.table _ _) => cases made
  | some (.value _) => cases made

/-! ## Values -/

/-- What every step of a fold keeps holds at its end. -/
theorem foldlM_keeps {α σ : Type} {P : σ → Prop} {step : σ → α → Option σ} {l : List α}
    (each : ∀ a ∈ l, ∀ s s', P s → step s a = some s' → P s') {s s' : σ} (start : P s)
    (h : l.foldlM step s = some s') : P s' := by
  induction l generalizing s with
  | nil =>
    cases h
    exact start
  | cons a l ih =>
    rw [List.foldlM_cons] at h
    obtain ⟨next, first, rest⟩ := Option.bind_eq_some_iff.1 h
    exact ih (fun a mem => each a (List.mem_cons_of_mem _ mem))
      (each a List.mem_cons_self s next start first) rest

theorem inlineTable?_regular {pairs : List (List String × Data)} {d : Data}
    (each : ∀ p ∈ pairs, p.2.Regular) (h : inlineTable? pairs = some d) : d.Regular := by
  obtain ⟨es, made, rfl⟩ := Option.map_eq_some_iff.1 h
  have regular : EntriesRegular es :=
    foldlM_keeps (fun p mem => keeps_putValue (each p mem) p.1) .nil made
  exact (regular_table_iff .header).2 regular

/-- What is read with some fuel as a value, as items or as pairs is regular. -/
structure ReadsRegular (fuel : Nat) : Prop where
  value : ∀ {depth cs d rest}, value? fuel depth cs = some (d, rest) → d.Regular
  items : ∀ {depth cs ds rest}, items? fuel depth cs = some (ds, rest) → ∀ d ∈ ds, d.Regular
  pairs : ∀ {depth cs ps rest}, pairs? fuel depth cs = some (ps, rest) → ∀ p ∈ ps, p.2.Regular

namespace ReadsRegular

variable {fuel : Nat} (less : ReadsRegular fuel) {depth : Nat} {cs rest : List Char}
include less

theorem value_succ {d : Data} (h : value? (fuel + 1) depth cs = some (d, rest)) : d.Regular := by
  rw [value?.eq_def] at h
  dsimp only at h
  split at h
  · obtain ⟨s, -, same⟩ := Option.map_eq_some_iff.1 h
    cases same
    exact .text s.1
  · obtain ⟨s, -, same⟩ := Option.map_eq_some_iff.1 h
    cases same
    exact .text s.1
  · split at h
    · cases h
    · obtain ⟨ds, read, same⟩ := Option.map_eq_some_iff.1 h
      cases same
      exact .list (less.items read)
  · split at h
    · cases h
    · split at h
      · cases h
        exact .table List.nodup_nil fun _ mem => absurd mem List.not_mem_nil
      · obtain ⟨ps, read, h⟩ := Option.bind_eq_some_iff.1 h
        obtain ⟨made, inline, h⟩ := Option.bind_eq_some_iff.1 h
        cases h
        exact inlineTable?_regular (less.pairs read) inline
  · exact readScalar_regular h

theorem items_succ {ds : List Data} (h : items? (fuel + 1) depth cs = some (ds, rest)) :
    ∀ d ∈ ds, d.Regular := by
  rw [items?.eq_def] at h
  dsimp only at h
  split at h
  · cases h
    exact fun _ mem => absurd mem List.not_mem_nil
  · obtain ⟨first, read, h⟩ := Option.bind_eq_some_iff.1 h
    split at h
    · cases h
      exact List.forall_mem_singleton.2 (less.value read)
    · obtain ⟨more, readMore, h⟩ := Option.bind_eq_some_iff.1 h
      cases h
      exact List.forall_mem_cons.2 ⟨less.value read, less.items readMore⟩
    · cases h

theorem pairs_succ {ps : List (List String × Data)}
    (h : pairs? (fuel + 1) depth cs = some (ps, rest)) : ∀ p ∈ ps, p.2.Regular := by
  rw [pairs?.eq_def] at h
  dsimp only at h
  obtain ⟨key, -, h⟩ := Option.bind_eq_some_iff.1 h
  split at h
  · obtain ⟨first, read, h⟩ := Option.bind_eq_some_iff.1 h
    split at h
    · cases h
      exact List.forall_mem_singleton.2 (less.value read)
    · obtain ⟨more, readMore, h⟩ := Option.bind_eq_some_iff.1 h
      cases h
      exact List.forall_mem_cons.2 ⟨less.value read, less.pairs readMore⟩
    · cases h
  · cases h

end ReadsRegular

theorem readsRegular (fuel : Nat) : ReadsRegular fuel := by
  induction fuel with
  | zero => exact ⟨fun h => (by cases h), fun h => (by cases h), fun h => (by cases h)⟩
  | succ fuel ih => exact ⟨ih.value_succ, ih.items_succ, ih.pairs_succ⟩

/-! ## Documents -/

/-- A line whose value, if it has one, is regular. -/
def Line.Regular : Line → Prop
  | .entry _ d => d.Regular
  | _ => True

theorem lineBody?_regular {fuel : Nat} {cs rest : List Char} {line : Line}
    (h : lineBody? fuel cs = some (line, rest)) : line.Regular := by
  unfold lineBody? at h
  split at h
  · cases h
    trivial
  · cases h
    trivial
  · cases h
    trivial
  · cases h
    trivial
  · obtain ⟨k, -, same⟩ := Option.map_eq_some_iff.1 h
    cases same
    trivial
  · obtain ⟨k, -, same⟩ := Option.map_eq_some_iff.1 h
    cases same
    trivial
  · obtain ⟨⟨k, after⟩, -, h⟩ := Option.bind_eq_some_iff.1 h
    dsimp only at h
    split at h
    · obtain ⟨d, read, h⟩ := Option.bind_eq_some_iff.1 h
      cases h
      exact (readsRegular fuel).value read
    · cases h

theorem lines?_regular {fuel : Nat} {cs : List Char} {lines : List Line}
    (h : lines? fuel cs = some lines) : ∀ line ∈ lines, line.Regular := by
  induction fuel generalizing cs lines with
  | zero =>
    cases cs with
    | nil =>
      cases h
      exact fun _ mem => absurd mem List.not_mem_nil
    | cons c cs => cases h
  | succ fuel ih =>
    rw [lines?.eq_def] at h
    split at h
    · cases h
      exact fun _ mem => absurd mem List.not_mem_nil
    · next eq _ => cases eq
    · next eq _ =>
      obtain ⟨first, read, h⟩ := Option.bind_eq_some_iff.1 h
      obtain ⟨rest, -, h⟩ := Option.bind_eq_some_iff.1 h
      obtain ⟨more, readMore, h⟩ := Option.bind_eq_some_iff.1 h
      cases h
      cases eq
      exact List.forall_mem_cons.2 ⟨lineBody?_regular read, ih readMore⟩

theorem add_regular {draft draft' : Draft} {line : Line} (number : line.Regular)
    (regular : EntriesRegular draft.entries) (h : draft.add line = some draft') :
    EntriesRegular draft'.entries := by
  cases line with
  | blank =>
    cases h
    exact regular
  | entry k d =>
    obtain ⟨es, put, rfl⟩ := Option.map_eq_some_iff.1 h
    exact (keeps_putValue number k).within _ _ _ regular put
  | table k =>
    obtain ⟨es, opened, rfl⟩ := Option.map_eq_some_iff.1 h
    exact (keeps_openTable _).within _ _ _ regular opened
  | listTable k =>
    obtain ⟨es, opened, rfl⟩ := Option.map_eq_some_iff.1 h
    exact (keeps_openListTable _).within _ _ _ regular opened

theorem parse?_regular {text : String} {d : Data} (h : parse? text = some d) : d.Regular := by
  obtain ⟨lines, read, made⟩ := Option.bind_eq_some_iff.1 h
  obtain ⟨draft, filled, rfl⟩ := Option.map_eq_some_iff.1 made
  have regular : EntriesRegular draft.entries :=
    foldlM_keeps (P := fun draft => EntriesRegular draft.entries)
      (fun line mem _ _ => add_regular (lines?_regular read line mem)) .nil filled
  exact (regular_table_iff .header).2 regular

theorem parse?_bounded {text : String} {d : Data} (h : parse? text = some d) : d.Bounded :=
  (parse?_regular h).bounded

end Toml
end CoverageMatrix
