import Mathlib.Data.List.Nodup
import SketchMerge.Files.Tree

/-! # What a tree shows at each location

    A tree is a list of entries, and what matters of it is the entry that it shows
    at each location.  Every change of a tree is said here by what it does to that
    VIEW: an entry is set, taken away, or taken away with all that is below it.
    None of it depends on the order of the entries. -/

namespace SketchMerge.Tree

theorem get?_nil (t : Tree) : t.get? [] = some .folder := rfl

theorem get?_of_ne_nil (t : Tree) {l : Location} (hl : l ≠ []) :
    t.get? l = t.entries.lookup l := by
  rw [get?, if_neg (fun h => hl (List.isEmpty_iff.mp h))]

-- ── Looking up in changed lists ─────────────────────────────────────────────

theorem lookup_filter (keep : Location → Bool) (l : Location) (es : List (Location × Entry)) :
    (es.filter fun (l', _) => keep l').lookup l = if keep l then es.lookup l else none := by
  induction es with
  | nil => rw [List.filter_nil, List.lookup_nil, ite_self]
  | cons x es ih =>
      obtain ⟨l', e⟩ := x
      rw [List.filter_cons]
      dsimp only
      by_cases hkeep : keep l' = true
      · rw [if_pos hkeep]
        by_cases hl : l = l'
        · rw [hl, List.lookup_cons_self, List.lookup_cons_self, if_pos hkeep]
        · have hne : (l == l') = false := beq_eq_false_iff_ne.mpr hl
          rw [List.lookup_cons, List.lookup_cons, hne, ih]
      · rw [if_neg hkeep, ih]
        by_cases hl : l = l'
        · rw [hl, if_neg hkeep, if_neg hkeep]
        · have hne : (l == l') = false := beq_eq_false_iff_ne.mpr hl
          rw [List.lookup_cons, hne]

theorem lookup_set (l l' : Location) (e : Entry) (es : List (Location × Entry)) :
    (es.map fun (k, x) => if k == l then (k, e) else (k, x)).lookup l'
      = if l' = l then (es.lookup l).map fun _ => e else es.lookup l' := by
  induction es with
  | nil => rw [List.map_nil, List.lookup_nil, List.lookup_nil, Option.map_none, ite_self]
  | cons x es ih =>
      obtain ⟨k, x⟩ := x
      rw [List.map_cons]
      by_cases hk : k = l
      · subst hk
        dsimp only
        rw [if_pos (beq_self_eq_true k)]
        by_cases hl : l' = k
        · rw [hl, List.lookup_cons_self, List.lookup_cons_self, if_pos rfl, Option.map_some]
        · have hne : (l' == k) = false := beq_eq_false_iff_ne.mpr hl
          rw [List.lookup_cons, hne, ih, if_neg hl, if_neg hl, List.lookup_cons, hne]
      · dsimp only
        rw [if_neg (fun h => hk (beq_iff_eq.mp h))]
        have hkl : (l == k) = false := beq_eq_false_iff_ne.mpr (Ne.symm hk)
        by_cases hl : l' = k
        · subst hl
          rw [List.lookup_cons_self, List.lookup_cons_self, if_neg hk]
        · have hne : (l' == k) = false := beq_eq_false_iff_ne.mpr hl
          rw [List.lookup_cons, hne, ih, List.lookup_cons, List.lookup_cons, hkl, hne]

-- ── Changes of a tree ───────────────────────────────────────────────────────

/-- A tree with an entry put into it shows that entry, and is otherwise unchanged. -/
theorem get?_put (t : Tree) {l : Location} (hl : l ≠ []) (e : Entry) (l' : Location) :
    (t.put l e).get? l' = if l' = l then some e else t.get? l' := by
  by_cases hl' : l' = []
  · rw [hl', get?_nil, get?_nil, if_neg (Ne.symm hl)]
  rw [get?_of_ne_nil _ hl', get?_of_ne_nil _ hl', put]
  cases hlookup : t.entries.lookup l with
  | some old =>
      rw [if_pos (Option.isSome_some), lookup_set, hlookup, Option.map_some]
  | none =>
      rw [if_neg (by rw [Option.isSome_none]; exact Bool.false_ne_true), List.lookup_append,
        List.lookup_cons]
      by_cases h : l' = l
      · rw [if_pos h, h, hlookup, beq_self_eq_true]
        rfl
      · rw [if_neg h, beq_eq_false_iff_ne.mpr h, List.lookup_nil, Option.or_none]

/-- A tree without an entry shows nothing there. -/
theorem get?_erase (t : Tree) {l : Location} (hl : l ≠ []) (l' : Location) :
    (t.erase l).get? l' = if l' = l then none else t.get? l' := by
  by_cases hl' : l' = []
  · rw [hl', get?_nil, get?_nil, if_neg (Ne.symm hl)]
  rw [get?_of_ne_nil _ hl', get?_of_ne_nil _ hl', erase, lookup_filter (· != l)]
  by_cases h : l' = l
  · rw [if_pos h, h, if_neg (by rw [bne_self_eq_false]; exact Bool.false_ne_true)]
  · rw [if_neg h, if_pos (bne_iff_ne.mpr h)]

/-- What is there after an entry is taken away was there before. -/
theorem get?_of_erase {t : Tree} {l l' : Location} {e : Entry}
    (h : (t.erase l).get? l' = some e) : t.get? l' = some e := by
  by_cases hl' : l' = []
  · rw [hl', get?_nil] at h ⊢
    exact h
  rw [get?_of_ne_nil _ hl', erase, lookup_filter (· != l)] at h
  rw [get?_of_ne_nil _ hl']
  split at h
  · exact h
  · cases h

/-- A pruned tree shows nothing from the location on. -/
theorem get?_prune (t : Tree) {l : Location} (hl : l ≠ []) (l' : Location) :
    (t.prune l).get? l' = if l <+: l' then none else t.get? l' := by
  by_cases hl' : l' = []
  · rw [hl', get?_nil, get?_nil, if_neg (fun h => hl (List.prefix_nil.mp h))]
  rw [get?_of_ne_nil _ hl', get?_of_ne_nil _ hl', prune, lookup_filter (fun l' => !l.isPrefixOf l')]
  by_cases h : l <+: l'
  · rw [if_pos h, List.isPrefixOf_iff_prefix.mpr h]
    rfl
  · have hno : l.isPrefixOf l' = false :=
      Bool.eq_false_iff.mpr fun hp => h (List.isPrefixOf_iff_prefix.mp hp)
    rw [if_neg h, hno]
    rfl

/-- Where the folders around a location are there, only the folder itself is made. -/
theorem putFolder_eq_put {t : Tree} {l : Location} (hl : t.get? l = none)
    (haround : ∀ n, n < l.length → (t.get? (l.take n)).isSome) :
    t.putFolder l = t.put l .folder := by
  have hne : l ≠ [] := by
    rintro rfl
    exact nomatch hl
  obtain ⟨n, hn⟩ := Nat.exists_eq_succ_of_ne_zero (fun h => hne (List.length_eq_zero_iff.mp h))
  have hkept : ∀ ks : List Nat, (∀ k ∈ ks, k < n) →
      (ks.map fun k => l.take (k + 1)).foldl
        (fun t l => if (t.get? l).isSome then t else t.put l .folder) t = t := by
    intro ks hks
    induction ks with
    | nil => rfl
    | cons k ks ih =>
        have hk := hks k (List.mem_cons_self ..)
        rw [List.map_cons, List.foldl_cons, if_pos (haround (k + 1) (by omega))]
        exact ih fun k hk => hks k (List.mem_cons_of_mem _ hk)
  rw [putFolder, hn, List.range_succ, List.map_append, List.foldl_append,
    hkept _ (fun k hk => List.mem_range.mp hk)]
  show (if (t.get? (l.take (n + 1))).isSome then t else t.put (l.take (n + 1)) .folder) = _
  rw [List.take_of_length_le (by omega), hl, if_neg (fun h => nomatch h)]

-- ── Listing a folder ────────────────────────────────────────────────────────

theorem isSome_lookup (l : Location) (es : List (Location × Entry)) :
    (es.lookup l).isSome ↔ ∃ e, (l, e) ∈ es := by
  induction es with
  | nil => exact ⟨(nomatch ·), fun ⟨e, he⟩ => nomatch he⟩
  | cons x es ih =>
      obtain ⟨k, x⟩ := x
      by_cases hk : l = k
      · subst hk
        rw [List.lookup_cons_self]
        exact ⟨fun _ => ⟨x, List.mem_cons_self ..⟩, fun _ => rfl⟩
      · rw [List.lookup_cons, beq_eq_false_iff_ne.mpr hk, ih]
        constructor
        · exact fun ⟨e, he⟩ => ⟨e, List.mem_cons_of_mem _ he⟩
        · rintro ⟨e, he⟩
          rcases List.mem_cons.mp he with he | he
          · exact absurd (Prod.mk.inj he).1 hk
          · exact ⟨e, he⟩

theorem isSome_get? (t : Tree) {l : Location} (hl : l ≠ []) :
    (t.get? l).isSome ↔ ∃ e, (l, e) ∈ t.entries := by
  rw [get?_of_ne_nil _ hl, isSome_lookup]

/-- A folder lists the names under which it shows an entry. -/
theorem mem_names (t : Tree) (folder : Location) (name : Text) :
    name ∈ t.names folder ↔ (t.get? (folder ++ [name])).isSome := by
  rw [isSome_get? t (List.append_ne_nil_of_right_ne_nil _ (List.cons_ne_nil _ _)), names,
    List.mem_filterMap]
  constructor
  · rintro ⟨⟨l, e⟩, hmem, h⟩
    dsimp only at h
    by_cases hfolder : l.dropLast = folder
    · rw [if_pos (beq_iff_eq.mpr hfolder)] at h
      obtain ⟨init, rfl⟩ := List.getLast?_eq_some_iff.mp h
      rw [List.dropLast_concat] at hfolder
      exact ⟨e, hfolder ▸ hmem⟩
    · rw [if_neg (fun hf => hfolder (beq_iff_eq.mp hf))] at h
      exact nomatch h
  · rintro ⟨e, he⟩
    refine ⟨_, he, ?_⟩
    dsimp only
    rw [List.dropLast_concat, if_pos (beq_self_eq_true folder), List.getLast?_concat]

-- ── Locations that come once ────────────────────────────────────────────────

/-- No location comes twice. -/
def Distinct (t : Tree) : Prop :=
  (t.entries.map Prod.fst).Nodup

theorem mem_locations (t : Tree) (l : Location) :
    l ∈ t.entries.map Prod.fst ↔ (t.entries.lookup l).isSome := by
  rw [isSome_lookup, List.mem_map]
  exact ⟨fun ⟨⟨_, e⟩, hmem, hl⟩ => ⟨e, hl ▸ hmem⟩, fun ⟨e, hmem⟩ => ⟨(l, e), hmem, rfl⟩⟩

theorem Distinct.put {t : Tree} (h : t.Distinct) (l : Location) (e : Entry) :
    (t.put l e).Distinct := by
  rw [Tree.put, Distinct]
  split
  · have hsame : (t.entries.map fun (l', e') => if l' == l then (l', e) else (l', e')).map Prod.fst
        = t.entries.map Prod.fst := by
      rw [List.map_map]
      refine List.map_congr_left fun x _ => ?_
      rw [Function.comp_apply]
      dsimp only
      split
      · rfl
      · rfl
    rw [hsame]
    exact h
  next hnone =>
      rw [List.map_append, List.map_singleton]
      refine List.nodup_append.mpr ⟨h, List.nodup_singleton _, ?_⟩
      intro a ha b hb heq
      rw [List.mem_singleton.mp hb] at heq
      rw [heq, mem_locations t l] at ha
      exact hnone ha

/-- No location comes twice among some of the entries. -/
theorem Distinct.filter {t : Tree} (h : t.Distinct) (keep : Location × Entry → Bool) :
    Distinct ⟨t.entries.filter keep⟩ :=
  h.sublist (List.filter_sublist.map Prod.fst)

/-- A folder lists each name once. -/
theorem Distinct.names {t : Tree} (h : t.Distinct) (folder : Location) :
    (t.names folder).Nodup := by
  have hnames : t.names folder = (t.entries.map Prod.fst).filterMap fun l =>
      if l.dropLast == folder then l.getLast? else none := by
    rw [Tree.names, List.filterMap_map]
    rfl
  rw [hnames]
  have hlocation {l : Location} {name : Text}
      (hl : (if l.dropLast == folder then l.getLast? else none) = some name) :
      l = folder ++ [name] := by
    split at hl
    next hfolder =>
        obtain ⟨init, rfl⟩ := List.getLast?_eq_some_iff.mp hl
        rw [← beq_iff_eq.mp hfolder, List.dropLast_concat]
    next => exact nomatch hl
  refine List.Nodup.filterMap (fun l l' name hl hl' => ?_) h
  rw [hlocation hl, hlocation hl']

end SketchMerge.Tree
