import PayFi.Agent.Persistence
import PayFi.Library.Offsets

namespace PayFi.Agent.Paging

open Persistence Library.Offsets Library.Results

variable (limit : ℕ)

/-- `getResults` from offset to offset, up to a page that is not full. Before each call the agent
has saved some more. -/
def readResults : Table → ℕ → List (List PersistedResult) →
    Except Unit (Option (List (List PersistedResult)))
  | _, _, [] => .ok none
  | t, offset, results :: news => do
    let t ← saveResults t results
    let p ← getResults t (some limit) (some offset)
    if p.length < limit then return some [p]
    let rest ← readResults t (offset + p.length) news
    return rest.map (p :: ·)

/-- What can be saved at all. -/
def Storable (results : List PersistedResult) : Prop :=
  ∀ r ∈ results, r.data = .undefined ∨ Serialisable r.data

def Holds (t : Table) (saved : List PersistedResult) : Prop :=
  List.Forall₂ (fun c r => resultOf c = .ok (kept r)) t.columns saved

def newestFirst (results : List PersistedResult) : List PersistedResult :=
  (results.map kept).reverse

variable {limit} {t : Table} {saved results : List PersistedResult} {offset : ℕ}

theorem newestFirst_append (saved results : List PersistedResult) :
    newestFirst (saved ++ results) = newestFirst results ++ newestFirst saved := by
  rw [newestFirst, List.map_append, List.reverse_append]
  rfl

theorem length_newestFirst (results : List PersistedResult) :
    (newestFirst results).length = results.length := by
  rw [newestFirst, List.length_reverse, List.length_map]

theorem length_flatten_newestFirst (news : List (List PersistedResult)) :
    (news.map newestFirst).flatten.length = news.flatten.length := by
  rw [List.length_flatten, List.length_flatten, List.map_map]
  exact congrArg List.sum (List.map_congr_left fun results _ => length_newestFirst results)

theorem Holds.save (h : Holds t saved) (hresults : Storable results) :
    ∃ t', saveResults t results = .ok t' ∧ Holds t' (saved ++ results) := by
  obtain ⟨t', cs, hsave, hcolumns, hcs⟩ := saveResults_ok t hresults
  refine ⟨t', hsave, ?_⟩
  rw [Holds, hcolumns]
  exact List.rel_append h hcs

theorem Holds.get (h : Holds t saved) (limit offset : ℕ) :
    getResults t (some limit) (some offset) = .ok (page limit offset (newestFirst saved)) := by
  rw [getResults, select_eq, Option.getD_some, Option.getD_some, mapM_eq_ok, page, newestFirst,
    ← List.map_reverse, ← List.map_drop, ← List.map_take, List.forall₂_map_right_iff]
  exact List.forall₂_take _ (List.forall₂_drop _ (List.rel_reverse h))

theorem readResults_eq (h : Holds t saved) {news : List (List PersistedResult)}
    (hnews : ∀ results ∈ news, Storable results) (offset : ℕ) :
    readResults limit t offset news =
      .ok (follow limit (newestFirst saved) offset (news.map newestFirst)) := by
  induction news generalizing t saved offset with
  | nil => rfl
  | cons results news ih =>
    obtain ⟨t', hsave, hholds⟩ := h.save (hnews results List.mem_cons_self)
    have hget := hholds.get limit offset
    rw [newestFirst_append] at hget
    have hrest := ih hholds (fun rs hrs => hnews rs (List.mem_cons_of_mem _ hrs))
      (offset + (page limit offset (newestFirst results ++ newestFirst saved)).length)
    rw [newestFirst_append] at hrest
    have hstep : readResults limit t offset (results :: news) =
        if (page limit offset (newestFirst results ++ newestFirst saved)).length < limit then
          .ok (some [page limit offset (newestFirst results ++ newestFirst saved)])
        else do
          let rest ← readResults limit t' (offset +
            (page limit offset (newestFirst results ++ newestFirst saved)).length) news
          return rest.map (page limit offset (newestFirst results ++ newestFirst saved) :: ·) := by
      rw [readResults, hsave]
      dsimp only [bind, Except.bind]
      rw [hget]
      rfl
    rw [hstep, hrest, List.map_cons, follow]
    split
    · rfl
    · rfl

theorem newestFirst_saved (saved : List PersistedResult) (news : List (List PersistedResult)) :
    (news.map newestFirst).reverse.flatten ++ newestFirst saved =
      newestFirst (saved ++ news.flatten) := by
  induction news generalizing saved with
  | nil => simp
  | cons results news ih =>
    rw [List.map_cons, List.reverse_cons, List.flatten_append, List.flatten_singleton,
      List.append_assoc, ← newestFirst_append, ih, List.flatten_cons, List.append_assoc]

/-- What a reader has once a page is not full. Each page is that of the results saved by then; all
that was saved before is there in its order; and on top of it is as much as has been saved in the
meantime, of that or of what was there before. -/
structure ReadThrough (limit : ℕ) (saved : List PersistedResult)
    (news pages : List (List PersistedResult)) : Prop where
  windows : ∀ i (hi : i < pages.length), pages[i] = page limit (pages.take i).flatten.length
    (newestFirst (saved ++ (news.take (i + 1)).flatten))
  complete : (newestFirst saved).Sublist pages.flatten
  surplus : ∃ again, pages.flatten.Perm (newestFirst saved ++ again) ∧
    again.length = (news.take pages.length).flatten.length ∧
    ∀ r ∈ again, r ∈ newestFirst (saved ++ (news.take pages.length).flatten)

theorem newestFirst_mono {news : List (List PersistedResult)} {m n : ℕ} (hmn : m ≤ n)
    {r : PersistedResult} (hr : r ∈ newestFirst (saved ++ (news.take m).flatten)) :
    r ∈ newestFirst (saved ++ (news.take n).flatten) := by
  have hsublist : ((news.take m).flatten).Sublist (news.take n).flatten := by
    have hsplit := List.take_append_drop m (news.take n)
    rw [List.take_take, Nat.min_eq_left hmn] at hsplit
    rw [← hsplit, List.flatten_append]
    exact List.sublist_append_left ..
  rw [newestFirst, List.mem_reverse] at hr ⊢
  exact ((hsublist.append_left saved).map kept).subset hr

theorem readThrough_of_follow {news pages : List (List PersistedResult)}
    (h : follow limit (newestFirst saved) 0 (news.map newestFirst) = some pages) :
    ReadThrough limit saved news pages := by
  have hwindows : ∀ i (hi : i < pages.length), pages[i] =
      page limit (pages.take i).flatten.length
        (newestFirst (saved ++ (news.take (i + 1)).flatten)) := by
    intro i hi
    rw [follow_getElem h i hi, Nat.zero_add, ← List.map_take, newestFirst_saved]
  have hsublist := follow_sublist h
  have hlength := follow_length (Nat.zero_le _) h
  rw [List.drop_zero] at hsublist
  rw [Nat.zero_add, length_newestFirst, ← List.map_take, length_flatten_newestFirst] at hlength
  obtain ⟨again, hperm⟩ := hsublist.exists_perm_append
  refine ⟨hwindows, hsublist, again, hperm, ?_, fun r hr => ?_⟩
  · have hcount := hperm.length_eq
    rw [List.length_append, length_newestFirst] at hcount
    omega
  · have hread : r ∈ pages.flatten := hperm.mem_iff.mpr (List.mem_append_right _ hr)
    obtain ⟨p, hp, hrp⟩ := List.mem_flatten.mp hread
    obtain ⟨i, hi, rfl⟩ := List.mem_iff_getElem.mp hp
    rw [hwindows i hi] at hrp
    exact newestFirst_mono hi (List.mem_of_mem_drop (List.mem_of_mem_take hrp))

theorem results_paged (limit : ℕ) {saved : List PersistedResult}
    {news : List (List PersistedResult)} (hsaved : Storable saved)
    (hnews : ∀ results ∈ news, Storable results) :
    ∃ t pages, saveResults .empty saved = .ok t ∧ readResults limit t 0 news = .ok pages ∧
      (∀ ps ∈ pages, ReadThrough limit saved news ps) ∧
      (saved.length + news.flatten.length < news.length * limit → pages.isSome) := by
  have hempty : Holds .empty [] := .nil
  obtain ⟨t, hsave, hholds⟩ := hempty.save hsaved
  rw [List.nil_append] at hholds
  refine ⟨t, _, hsave, readResults_eq hholds hnews 0, fun ps hps => readThrough_of_follow hps, ?_⟩
  intro hfast
  refine follow_isSome (Nat.zero_le _) ?_
  rw [length_newestFirst, length_flatten_newestFirst, List.length_map]
  omega

theorem results_paged_while_saving :
    ∃ t pages, saveResults .empty [executed, refused] = .ok t ∧
      readResults 1 t 0 [[], [executed], [], []] = .ok pages ∧
      (∀ ps ∈ pages, ReadThrough 1 [executed, refused] [[], [executed], [], []] ps) ∧
      pages.isSome := by
  have hexecuted : Storable [executed] := List.forall_mem_singleton.mpr (.inr serialisable_executed)
  have hsaved : Storable [executed, refused] :=
    List.forall_mem_cons.mpr ⟨.inr serialisable_executed, List.forall_mem_singleton.mpr (.inl rfl)⟩
  have hnews : ∀ results ∈ [[], [executed], [], []], Storable results := by
    simp only [List.forall_mem_cons, hexecuted]
    simp [Storable]
  obtain ⟨t, pages, hsave, hread, hthrough, hfast⟩ := results_paged 1 hsaved hnews
  exact ⟨t, pages, hsave, hread, hthrough, hfast (by decide)⟩

end PayFi.Agent.Paging
