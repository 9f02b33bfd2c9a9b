import Mathlib.Data.List.Induction
import MeteredLedger.Proofs.Rewind

/-!
# Histories of a journal

A snapshot is named by the number of snapshots that are live when it is taken, and a journal keeps
nothing of it but the number of entries at that time.  This module follows a journal through any
history.  A live name always stands for one snapshot of the history, the only one that was taken
under the name and not ended since, and going back to the name gives the journal in which that
snapshot was taken.  Since names are given again, this need not be the snapshot that the name was
first given to.
-/

namespace MeteredLedger

namespace Journal

variable {α : Type}

/-- What can be asked of a journal. -/
inductive Act (α : Type) where
  | record (entry : α)
  | snapshot
  | revert (name : Nat)
  | clear

/-- Whether an act ends the snapshot of a live name: it goes back to it or to an earlier one, or it
clears the journal. -/
def Act.ends (name : Nat) : Act α → Bool
  | .revert other => decide (other ≤ name)
  | .clear => true
  | _ => false

def perform (j : Journal α) : Act α → Journal α
  | .record entry => j.record entry
  | .snapshot => j.snapshot.2
  | .revert name => ((j.revert? name).map Prod.snd).getD j
  | .clear => {}

/-- The journal that a history leads to from the empty one. -/
def after (history : List (Act α)) : Journal α := history.foldl perform {}

/-- The snapshot taken in a history right after `before` got the name, and nothing has ended it
since. -/
def KeptSince (history before : List (Act α)) (name : Nat) : Prop :=
  ∃ since, history = before ++ .snapshot :: since ∧ (after before).snapshot.1 = name ∧
    ∀ act ∈ since, act.ends name = false

theorem after_append (history acts : List (Act α)) :
    after (history ++ acts) = acts.foldl perform (after history) := by
  simp [after]

theorem after_concat (history : List (Act α)) (act : Act α) :
    after (history ++ [act]) = (after history).perform act := by
  simp [after]

theorem revert?_eq_none_iff {j : Journal α} {name : Nat} :
    j.revert? name = none ↔ j.marks.size ≤ name := by
  simp [revert?]

theorem perform_revert_of_none {j : Journal α} {name : Nat} (h : j.revert? name = none) :
    j.perform (.revert name) = j := by
  simp [perform, h]

theorem perform_revert_of_mark {j : Journal α} {name mark : Nat} (h : j.marks[name]? = some mark) :
    j.perform (.revert name) =
      { entries := j.entries.take mark, marks := j.marks.take name } := by
  simp [perform, revert?_of_mark j h]

/-! ## Journals past a snapshot -/

/-- The second journal has a snapshot that was taken in the first one: it has the entries and marks of
the first, the mark of the snapshot, and no later mark below that. -/
def Continues (j j' : Journal α) : Prop :=
  ∃ es ms, j'.entries.toList = j.entries.toList ++ es ∧
    j'.marks.toList = j.marks.toList ++ j.entries.size :: ms ∧ ∀ mark ∈ ms, j.entries.size ≤ mark

section Continues

variable {j j' : Journal α}

theorem continues_snapshot (j : Journal α) : Continues j j.snapshot.2 :=
  ⟨[], [], by simp [snapshot], snapshot_marks j, by simp⟩

theorem Continues.getElem?_marks (h : Continues j j') :
    j'.marks[j.marks.size]? = some j.entries.size := by
  obtain ⟨es, ms, -, hmarks, -⟩ := h
  rw [← Array.getElem?_toList, hmarks]
  simp

theorem Continues.size_le (h : Continues j j') : j.entries.size ≤ j'.entries.size := by
  obtain ⟨es, ms, hentries, -, -⟩ := h
  rw [← Array.length_toList, ← Array.length_toList, hentries, List.length_append]
  exact Nat.le_add_right _ _

theorem Continues.lt_size (h : Continues j j') : j.marks.size < j'.marks.size :=
  (Array.getElem?_eq_some_iff.mp h.getElem?_marks).1

theorem Continues.le_of_lt (h : Continues j j') {i mark : Nat} (hi : j.marks.size < i)
    (hmark : j'.marks[i]? = some mark) : j.entries.size ≤ mark := by
  obtain ⟨es, ms, -, hmarks, hle⟩ := h
  rw [← Array.length_toList] at hi
  rw [← Array.getElem?_toList, hmarks, List.getElem?_append_right (Nat.le_of_lt hi),
    List.getElem?_cons, if_neg (by omega)] at hmark
  exact hle mark (List.mem_of_getElem? hmark)

theorem Continues.revert (h : Continues j j') {name : Nat} (hname : j.marks.size < name) :
    Continues j (j'.perform (.revert name)) := by
  cases hmark : j'.marks[name]? with
  | none =>
      have hdead : j'.revert? name = none := by simpa [revert?] using hmark
      rwa [perform_revert_of_none hdead]
  | some mark =>
      have hlow := h.le_of_lt hname hmark
      obtain ⟨es, ms, hentries, hmarks, hle⟩ := h
      rw [perform_revert_of_mark hmark]
      refine ⟨es.take (mark - j.entries.size), ms.take (name - j.marks.size - 1), ?_, ?_, ?_⟩
      · rw [toList_take, hentries, List.take_append, Array.length_toList,
          List.take_of_length_le (by rwa [Array.length_toList])]
      · have hcons : name - j.marks.size = name - j.marks.size - 1 + 1 := by omega
        rw [toList_take, hmarks, List.take_append, Array.length_toList,
          List.take_of_length_le (by rw [Array.length_toList]; omega), hcons, List.take_succ_cons,
          Nat.add_sub_cancel]
      · intro m hm
        exact hle m (List.mem_of_mem_take hm)

theorem Continues.perform (h : Continues j j') {act : Act α}
    (hact : act.ends j.marks.size = false) : Continues j (j'.perform act) := by
  cases act with
  | record entry =>
      obtain ⟨es, ms, hentries, hmarks, hle⟩ := h
      refine ⟨es ++ [entry], ms, ?_, hmarks, hle⟩
      rw [Journal.perform, record_entries, hentries, List.append_assoc]
  | snapshot =>
      have hsize := h.size_le
      obtain ⟨es, ms, hentries, hmarks, hle⟩ := h
      refine ⟨es, ms ++ [j'.entries.size], hentries, ?_, ?_⟩
      · rw [Journal.perform, snapshot_marks, hmarks, List.append_assoc, List.cons_append]
      · intro mark hmark
        rcases List.mem_append.mp hmark with hold | hnew
        · exact hle mark hold
        · rwa [List.mem_singleton.mp hnew]
  | revert name => exact h.revert (by simpa [Act.ends] using hact)
  | clear => cases hact

theorem Continues.foldl (h : Continues j j') {acts : List (Act α)}
    (hacts : ∀ act ∈ acts, act.ends j.marks.size = false) :
    Continues j (acts.foldl Journal.perform j') := by
  induction acts generalizing j' with
  | nil => exact h
  | cons act acts ih =>
      rw [List.forall_mem_cons] at hacts
      exact ih (h.perform hacts.1) hacts.2

theorem Continues.revert?_eq (h : Continues j j') :
    ∃ undone, j'.revert? j.marks.size = some (undone, j) ∧
      j'.entries.toList = j.entries.toList ++ undone.reverse := by
  have hmark := h.getElem?_marks
  obtain ⟨es, ms, hentries, hmarks, -⟩ := h
  have hback : { entries := j'.entries.take j.entries.size, marks := j'.marks.take j.marks.size } =
      j := by
    apply ext_toList
    · rw [toList_take, hentries, ← Array.length_toList, List.take_left]
    · rw [toList_take, hmarks, ← Array.length_toList, List.take_left]
  refine ⟨es.reverse, ?_, by rw [List.reverse_reverse, hentries]⟩
  rw [revert?_of_mark j' hmark, hback, hentries, ← Array.length_toList, List.drop_left]

end Continues

/-! ## The snapshot of a live name -/

section Histories

variable {history before : List (Act α)} {name : Nat}

theorem KeptSince.name_eq (h : KeptSince history before name) : (after before).marks.size = name := by
  obtain ⟨since, -, hname, -⟩ := h
  exact hname

theorem KeptSince.continues (h : KeptSince history before name) :
    Continues (after before) (after history) := by
  have hname := h.name_eq
  obtain ⟨since, rfl, -, hkept⟩ := h
  subst hname
  rw [after_append, List.foldl_cons]
  exact (continues_snapshot (after before)).foldl hkept

theorem KeptSince.concat (h : KeptSince history before name) {act : Act α}
    (hact : act.ends name = false) : KeptSince (history ++ [act]) before name := by
  obtain ⟨since, rfl, hname, hkept⟩ := h
  refine ⟨since ++ [act], by simp, hname, ?_⟩
  intro other hother
  rcases List.mem_append.mp hother with hold | hnew
  · exact hkept other hold
  · rwa [List.mem_singleton.mp hnew]

/-- Every live name was given to a snapshot that is kept since. -/
theorem exists_keptSince (h : name < (after history).marks.size) :
    ∃ before, KeptSince history before name := by
  induction history using List.reverseRecOn generalizing name with
  | nil => cases h
  | append_singleton history act ih =>
      rw [after_concat] at h
      cases act with
      | record entry =>
          obtain ⟨before, hkept⟩ := ih h
          exact ⟨before, hkept.concat rfl⟩
      | snapshot =>
          rw [perform, snapshot, Array.size_push, Nat.lt_succ_iff_lt_or_eq] at h
          rcases h with hold | rfl
          · obtain ⟨before, hkept⟩ := ih hold
            exact ⟨before, hkept.concat rfl⟩
          · exact ⟨history, [], rfl, rfl, by simp⟩
      | revert other =>
          -- A name below the one gone back to was live before and is not ended.
          have hlive : name < other ∧ name < (after history).marks.size := by
            cases hmark : (after history).marks[other]? with
            | none =>
                have hdead : (after history).marks.size ≤ other := by simpa using hmark
                rw [perform_revert_of_none (revert?_eq_none_iff.mpr hdead)] at h
                exact ⟨Nat.lt_of_lt_of_le h hdead, h⟩
            | some mark =>
                rw [perform_revert_of_mark hmark, ← Array.length_toList, toList_take, List.length_take,
                  Array.length_toList, Nat.lt_min] at h
                exact h
          obtain ⟨before, hkept⟩ := ih hlive.2
          exact ⟨before, hkept.concat (by simpa [Act.ends] using hlive.1)⟩
      | clear => cases h

/-- Of two snapshots kept under one name, the later one would have been taken while the name was
live. -/
theorem KeptSince.length_le {before' : List (Act α)} (h : KeptSince history before name)
    (h' : KeptSince history before' name) : before'.length ≤ before.length := by
  by_contra hlt
  have hname := h'.name_eq
  obtain ⟨since, hsplit, htaken, hkept⟩ := h
  obtain ⟨since', hsplit', -, -⟩ := h'
  obtain ⟨mid, rfl, rfl⟩ : ∃ mid, before' = before ++ .snapshot :: mid ∧
      since = mid ++ .snapshot :: since' := by
    rw [hsplit] at hsplit'
    rcases List.append_eq_append_iff.mp hsplit' with ⟨tail, rfl, htail⟩ | ⟨tail, rfl, -⟩
    · cases tail with
      | nil => simp at hlt
      | cons act tail =>
          cases htail
          exact ⟨tail, rfl, rfl⟩
    · rw [List.length_append] at hlt
      omega
  have hmid : KeptSince (before ++ .snapshot :: mid) before name :=
    ⟨mid, rfl, htaken, fun act hact ↦ hkept act (List.mem_append_left _ hact)⟩
  have hlive := hmid.continues.lt_size
  rw [hmid.name_eq, hname] at hlive
  exact Nat.lt_irrefl _ hlive

theorem KeptSince.unique {before' : List (Act α)} (h : KeptSince history before name)
    (h' : KeptSince history before' name) : before' = before := by
  have hlength := Nat.le_antisymm (h.length_le h') (h'.length_le h)
  obtain ⟨since, hsplit, -, -⟩ := h
  obtain ⟨since', hsplit', -, -⟩ := h'
  exact (List.append_inj (hsplit'.symm.trans hsplit) hlength).1

theorem KeptSince.revert?_eq (h : KeptSince history before name) :
    ∃ undone, (after history).revert? name = some (undone, after before) ∧
      (after history).entries.toList = (after before).entries.toList ++ undone.reverse := by
  rw [← h.name_eq]
  exact h.continues.revert?_eq

/-- A snapshot that is kept was taken after every act that ends its name. -/
theorem KeptSince.ended_before {ended rest : List (Act α)} {act : Act α}
    (h : KeptSince (ended ++ [act] ++ rest) before name) (hact : act.ends name = true) :
    ∃ mid, before = ended ++ [act] ++ mid := by
  obtain ⟨since, hsplit, -, hkept⟩ := h
  rcases List.append_eq_append_iff.mp hsplit with ⟨mid, hmid, -⟩ | ⟨tail, hended, htail⟩
  · exact ⟨mid, hmid⟩
  · rcases List.eq_nil_or_concat tail with rfl | ⟨tail, last, rfl⟩
    · exact ⟨[], by simpa using hended.symm⟩
    · -- The act would stand among those that have ended nothing.
      exfalso
      rw [List.concat_eq_append, ← List.append_assoc] at hended
      obtain ⟨-, hlast⟩ := List.append_inj' hended rfl
      cases hlast
      have hmem : act ∈ (Act.snapshot :: since : List (Act α)) := by
        rw [htail]
        simp
      rcases List.mem_cons.mp hmem with rfl | hsince
      · cases hact
      · rw [hkept act hsince] at hact
        cases hact

theorem getElem?_marks_after {mark : Nat} (h : (after history).marks[name]? = some mark) :
    ∃ before, KeptSince history before name ∧ (after before).entries.size = mark := by
  obtain ⟨before, hkept⟩ := exists_keptSince (Array.getElem?_eq_some_iff.mp h).1
  refine ⟨before, hkept, ?_⟩
  have hmark := hkept.continues.getElem?_marks
  rw [hkept.name_eq, h] at hmark
  exact (Option.some.inj hmark).symm

theorem mark_le_of_le {name' mark mark' : Nat} (hle : name ≤ name')
    (h : (after history).marks[name]? = some mark)
    (h' : (after history).marks[name']? = some mark') : mark ≤ mark' := by
  rcases Nat.lt_or_eq_of_le hle with hlt | rfl
  · obtain ⟨before, hkept, rfl⟩ := getElem?_marks_after h
    exact hkept.continues.le_of_lt (hkept.name_eq ▸ hlt) h'
  · exact Nat.le_of_eq (Option.some.inj (h.symm.trans h'))

end Histories

/-- Going back along any history.  The marks never fall and never exceed the number of entries.  A
name is refused, and changes nothing, exactly if there are no more live snapshots than it says.
Otherwise one snapshot of the history was taken under the name and kept since; what is taken back is
the rest of the entries, newest first, and the journal is again the one just before that snapshot. -/
theorem journal_goes_back_in_segments (history : List (Act α)) (name : Nat) :
    (after history).marks.toList.Pairwise (· ≤ ·) ∧
      (∀ mark ∈ (after history).marks, mark ≤ (after history).entries.size) ∧
      (∀ undone j, (after history).revert? name = some (undone, j) →
        (after history).entries.toList = j.entries.toList ++ undone.reverse ∧
        ∃! before, KeptSince history before name ∧ after before = j) ∧
      ((after history).revert? name = none ↔ ¬name < (after history).marks.size) ∧
      ((after history).revert? name = none →
        (after history).perform (.revert name) = after history) := by
  refine ⟨?_, ?_, ?_, ?_, perform_revert_of_none⟩
  · rw [List.pairwise_iff_getElem]
    intro i k hi hk hik
    exact mark_le_of_le (Nat.le_of_lt hik) (Array.getElem?_eq_getElem hi)
      (Array.getElem?_eq_getElem hk)
  · intro mark hmark
    obtain ⟨i, hi⟩ := Array.getElem?_of_mem hmark
    obtain ⟨before, hkept, rfl⟩ := getElem?_marks_after hi
    exact hkept.continues.size_le
  · intro undone j hback
    have hlive : name < (after history).marks.size := by
      by_contra hdead
      rw [revert?_eq_none_iff.mpr (Nat.not_lt.mp hdead)] at hback
      cases hback
    obtain ⟨before, hkept⟩ := exists_keptSince hlive
    obtain ⟨undone', hback', hentries⟩ := hkept.revert?_eq
    rw [hback] at hback'
    cases hback'
    exact ⟨hentries, before, ⟨hkept, rfl⟩, fun other hother ↦ hkept.unique hother.1⟩
  · rw [revert?_eq_none_iff, Nat.not_lt]

/-- The middle one of three snapshots is ended and taken anew before the outermost one is gone back
to. -/
def nestedHistory : List (Act Nat) :=
  [.record 1, .snapshot, .record 2, .snapshot, .record 3, .snapshot, .record 4, .revert 1, .record 5,
    .snapshot, .record 6]

theorem nested_history_goes_back :
    (after nestedHistory).revert? 0 = some ([6, 5, 2], after [.record 1]) ∧
      (after nestedHistory).entries.toList =
        (after [(.record 1 : Act Nat)]).entries.toList ++ [6, 5, 2].reverse ∧
      ∃! before, KeptSince nestedHistory before 0 ∧ after before = after [.record 1] := by
  have hback : (after nestedHistory).revert? 0 = some ([6, 5, 2], after [.record 1]) := rfl
  obtain ⟨-, -, hsegments, -, -⟩ := journal_goes_back_in_segments nestedHistory 0
  exact ⟨hback, hsegments _ _ hback⟩

/-- What becomes of a name once its snapshot is ended, here by an act after `lived`.  It is refused,
and changes nothing, exactly as long as no snapshot taken since under the same name is kept.  If one
is, the name goes back to that. -/
theorem stale_name_is_refused_until_taken_again (before lived rest : List (Act α)) (act : Act α)
    (hact : act.ends (after before).snapshot.1 = true) :
    let name := (after before).snapshot.1
    let ended := before ++ .snapshot :: lived ++ [act]
    let j := after (ended ++ rest)
    ((j.revert? name = none ∧ j.perform (.revert name) = j) ↔
        ¬∃ mid, KeptSince (ended ++ rest) (ended ++ mid) name) ∧
      ∀ mid, KeptSince (ended ++ rest) (ended ++ mid) name →
        ∃ undone, j.revert? name = some (undone, after (ended ++ mid)) ∧
          j.entries.toList = (after (ended ++ mid)).entries.toList ++ undone.reverse := by
  intro name ended j
  refine ⟨⟨?_, ?_⟩, fun mid ↦ KeptSince.revert?_eq⟩
  · rintro ⟨hnone, -⟩ ⟨mid, hkept⟩
    obtain ⟨undone, hback, -⟩ := hkept.revert?_eq
    cases hnone.symm.trans hback
  · intro hfree
    have hnone : j.revert? name = none := by
      rw [revert?_eq_none_iff, ← Nat.not_lt]
      intro hlive
      obtain ⟨taken, hkept⟩ := exists_keptSince hlive
      obtain ⟨mid, rfl⟩ := hkept.ended_before hact
      exact hfree ⟨mid, hkept⟩
    exact ⟨hnone, perform_revert_of_none hnone⟩

/-- An inner snapshot is ended with the outer one, and both names are given again. -/
theorem retaken_name_goes_back_to_newer_snapshot :
    let ended : List (Act Nat) :=
      [.snapshot, .record 1] ++ .snapshot :: [.record 2, .snapshot, .record 3] ++ [.revert 0]
    let rest : List (Act Nat) := [.snapshot, .record 4, .snapshot, .record 5]
    (Act.revert 0 : Act Nat).ends 1 = true ∧
      KeptSince (ended ++ rest) (ended ++ [.snapshot, .record 4]) 1 ∧
      ∃ undone, (after (ended ++ rest)).revert? 1 =
          some (undone, after (ended ++ [.snapshot, .record 4])) ∧
        (after (ended ++ rest)).entries.toList =
          (after (ended ++ [.snapshot, .record 4])).entries.toList ++ undone.reverse := by
  intro ended rest
  have hkept : KeptSince (ended ++ rest) (ended ++ [.snapshot, .record 4]) 1 :=
    ⟨[.record 5], rfl, rfl, by simp [Act.ends]⟩
  have hstale := stale_name_is_refused_until_taken_again [.snapshot, .record 1]
    [.record 2, .snapshot, .record 3] rest (.revert 0) rfl
  exact ⟨rfl, hkept, hstale.2 _ hkept⟩

/-- The name of the first snapshot takes back an entry that was recorded after its end. -/
theorem stale_name_takes_back_newer_entry :
    (after ([] : List (Act Nat))).snapshot.1 = 0 ∧ (Act.revert 0 : Act Nat).ends 0 = true ∧
      (after ([.snapshot, .record 1, .revert 0] : List (Act Nat))).revert? 0 = none ∧
      (after ([.snapshot, .record 1, .revert 0, .snapshot, .record 2] : List (Act Nat))).revert? 0 =
        some ([2], {}) :=
  ⟨rfl, rfl, rfl, rfl⟩

end Journal

end MeteredLedger
