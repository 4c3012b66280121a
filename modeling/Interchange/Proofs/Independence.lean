import Mathlib.Logic.Equiv.Basic
import Interchange.Engine.Notices
import Interchange.Proofs.Deeds
import Interchange.Proofs.Records

/-!
# Independent calls

Calls of different keys can be made in either order (`Engine.calls_commute`). All that a call learns of
another is how many numbers are given out, so the tables of the two orders differ in numbers only, and only
if both calls put something in: then the numbers that they get change places.
-/

namespace Interchange

variable {H L : Type}

/-! ## Other numbers -/

def Attempt.renumber (f : Nat → Nat) (a : Attempt) : Attempt := { a with id := a.id.map f }

def StoredHeader.renumber (g : Nat → Nat) (h : StoredHeader H) : StoredHeader H := { h with id := g h.id }

def StoredLine.renumber (g : Nat → Nat) (line : StoredLine L) : StoredLine L :=
  { line with headerId := g line.headerId }

/-- The attempt of number `i` in one table has number `f i` in the other. -/
def AttemptTable.Renumbered (f : Nat → Nat) (t u : AttemptTable) : Prop :=
  ∀ i, u.get? (f i) = (t.get? i).map (·.renumber f)

/-- The header of number `i` in one table has number `g i` in the other, and the same lines in the same
order. -/
structure RecordTable.Renumbered (g : Nat → Nat) (t u : RecordTable H L) : Prop where
  headers : ∀ i, u.header? (g i) = (t.header? i).map (·.renumber g)
  lines : ∀ i, u.linesOf (g i) = (t.linesOf i).map (·.renumber g)

/-- Tables that hold the same under other numbers. -/
structure Store.Renumbered (f g : Nat → Nat) (s t : Store H L) : Prop where
  attempts : s.attempts.Renumbered f t.attempts
  records : s.records.Renumbered g t.records

/-- The two numbers behind `n` change places. -/
def exchange (n : Nat) : Equiv.Perm Nat := Equiv.swap (n + 1) (n + 2)

section

variable {f g : Nat → Nat} {i n : Nat}

@[simp] theorem exchange_first : exchange n (n + 1) = n + 2 := Equiv.swap_apply_left _ _

@[simp] theorem exchange_second : exchange n (n + 2) = n + 1 := Equiv.swap_apply_right _ _

theorem exchange_of_ne (hfirst : i ≠ n + 1) (hsecond : i ≠ n + 2) : exchange n i = i :=
  Equiv.swap_apply_of_ne_of_ne hfirst hsecond

theorem exchange_of_le (h : i ≤ n) : exchange n i = i := exchange_of_ne (by omega) (by omega)

theorem renumber_id (a : Attempt) : a.renumber id = a := by
  simp [Attempt.renumber]

theorem map_renumber_id {ε : Type} (x : Except ε Attempt) : x.map (·.renumber id) = x := by
  cases x with
  | error e => rfl
  | ok a => exact congrArg Except.ok (renumber_id a)

theorem AttemptTable.Numbered.map_renumber {t : AttemptTable} (ht : t.Numbered) (hi : f i = i) :
    (t.get? i).map (·.renumber f) = t.get? i := by
  cases h : t.get? i with
  | none => rfl
  | some a =>
      obtain ⟨id, _⟩ := a
      cases (ht i _ h : id = some i)
      simp [Attempt.renumber, hi]

namespace RecordTable

variable {t : RecordTable H L}

theorem header?_map_renumber (hi : g i = i) : (t.header? i).map (·.renumber g) = t.header? i := by
  cases h : t.header? i with
  | none => rfl
  | some header =>
      obtain ⟨id, client, record⟩ := header
      have hid : id = i := by simpa using List.find?_some h
      simp [StoredHeader.renumber, hid, hi]

theorem linesOf_map_renumber (hi : g i = i) : (t.linesOf i).map (·.renumber g) = t.linesOf i := by
  rw [List.map_congr_left (g := id), List.map_id]
  intro line hline
  obtain ⟨header, client, record⟩ := line
  have hheader : header = i := by simpa using (List.mem_filter.1 hline).2
  simp [StoredLine.renumber, hheader, hi]

theorem Renumbered.refl (t : RecordTable H L) : t.Renumbered (Equiv.refl Nat) t :=
  ⟨fun _ => (header?_map_renumber rfl).symm, fun _ => (linesOf_map_renumber rfl).symm⟩

end RecordTable

end

/-! ## Deeds in either order -/

namespace Engine.Deed

variable {t : AttemptTable} {x y : Deed} {key other : String × String}

/-- The deed puts in an attempt. -/
def Inserts : Deed → Prop
  | insert _ _ => True
  | _ => False

theorem length_apply (hx : ¬ x.Inserts) : (x.apply t).rows.length = t.rows.length := by
  cases x with
  | nothing e => rfl
  | insert a lost => exact absurd trivial hx
  | replace n a => exact List.length_set

theorem answer_apply (h : ¬ (x.Inserts ∧ y.Inserts)) : x.answer (y.apply t) = x.answer t := by
  cases x with
  | nothing e => rfl
  | replace n a => rfl
  | insert a lost =>
      have hlength := length_apply (t := t) fun hy => h ⟨trivial, hy⟩
      cases lost with
      | some e => rfl
      | none => simp [answer, AttemptTable.create, hlength]

/-- An attempt is put in behind the one that is written. -/
theorem apply_insert_replace {n : Nat} {a b : Attempt} {lost : Option EngineError}
    (h : (replace n a).On key t) :
    (insert b lost).apply ((replace n a).apply t) = (replace n a).apply ((insert b lost).apply t) := by
  obtain ⟨_, _, old, hold, _⟩ := h
  cases n with
  | zero => cases hold
  | succ n =>
      have hlt : n < t.rows.length := AttemptTable.isSome_get?_succ.1 (hold ▸ rfl)
      simp [apply, AttemptTable.create, hlt]

/-- Deeds on different keys, of which one puts in nothing, come to the same in either order. -/
theorem apply_comm (hx : x.On key t) (hy : y.On other t) (hne : key ≠ other)
    (h : ¬ (x.Inserts ∧ y.Inserts)) : x.apply (y.apply t) = y.apply (x.apply t) := by
  cases x with
  | nothing e => rfl
  | insert a lost =>
      cases y with
      | nothing e => rfl
      | insert b lost' => exact absurd ⟨trivial, trivial⟩ h
      | replace m b => exact apply_insert_replace hy
  | replace n a =>
      cases y with
      | nothing e => rfl
      | insert b lost => exact (apply_insert_replace hx).symm
      | replace m b =>
          obtain ⟨_, _, old, hold, holdkey⟩ := hx
          obtain ⟨_, _, old', hold', holdkey'⟩ := hy
          have hnm : n - 1 ≠ m - 1 := by
            intro hnm
            cases n with
            | zero => cases hold
            | succ n =>
                cases m with
                | zero => cases hold'
                | succ m =>
                    cases (hnm : n = m)
                    rw [hold] at hold'
                    cases hold'
                    exact hne (holdkey.symm.trans holdkey')
          exact congrArg AttemptTable.mk (List.set_comm _ _ hnm.symm)

/-- Of two attempts that are put in, the numbers change places with the order. -/
theorem renumbered_create (ht : t.Numbered) (a b : Attempt) :
    ((t.create a).2.create b).2.Renumbered (exchange t.rows.length) ((t.create b).2.create a).2 := by
  have hnext : ∀ a b : Attempt, ((t.create a).2.create b).1 = t.rows.length + 2 := fun a b => by
    simp [AttemptTable.create]
  -- what stands at a number behind two that are put in
  have hfirst : ∀ a b : Attempt, ((t.create a).2.create b).2.get? (t.rows.length + 1) =
      some { a with id := some (t.rows.length + 1) } := fun a b => by
    rw [AttemptTable.get?_create_of_ne (by rw [hnext]; omega)]
    exact AttemptTable.get?_create t a
  have hsecond : ∀ a b : Attempt, ((t.create a).2.create b).2.get? (t.rows.length + 2) =
      some { b with id := some (t.rows.length + 2) } := fun a b => by
    have h := AttemptTable.get?_create (t.create a).2 b
    rwa [hnext] at h
  intro i
  by_cases hi : i = t.rows.length + 1
  · rw [hi, exchange_first, hfirst, hsecond]
    simp [Attempt.renumber]
  · by_cases hi' : i = t.rows.length + 2
    · rw [hi', exchange_second, hfirst, hsecond]
      simp [Attempt.renumber]
    · have hold : ∀ a b : Attempt, ((t.create a).2.create b).2.get? i = t.get? i := fun a b => by
        rw [AttemptTable.get?_create_of_ne (by rw [hnext]; exact hi'),
          AttemptTable.get?_create_of_ne hi]
      have hfix : exchange t.rows.length i = i := exchange_of_ne hi hi'
      rw [hfix, hold, hold, ht.map_renumber hfix]

theorem answer_insert {a : Attempt} {lost : Option EngineError} {y : Deed} (hy : y.Inserts) :
    (insert a lost).answer (y.apply t) =
        ((insert a lost).answer t).map (·.renumber (exchange t.rows.length)) ∧
      (insert a lost).answer t =
        ((insert a lost).answer (y.apply t)).map (·.renumber (exchange t.rows.length)) := by
  cases y with
  | nothing e => cases hy
  | replace n b => cases hy
  | insert b lost' =>
      cases lost with
      | some e => exact ⟨rfl, rfl⟩
      | none => simp [answer, apply, AttemptTable.create, Except.map, Attempt.renumber]

/-- Deeds on different keys can be done in either order: what they answer and what they leave behind are the
same up to the numbers that they give out. -/
theorem exists_renumbered (ht : t.Numbered) (hx : x.On key t) (hy : y.On other t) (hne : key ≠ other) :
    ∃ f : Equiv.Perm Nat, (∀ i ≤ t.rows.length, f i = i) ∧
      x.answer (y.apply t) = (x.answer t).map (·.renumber f) ∧
      y.answer t = (y.answer (x.apply t)).map (·.renumber f) ∧
      (y.apply (x.apply t)).Renumbered f (x.apply (y.apply t)) := by
  by_cases h : x.Inserts ∧ y.Inserts
  · obtain ⟨hxi, hyi⟩ := h
    refine ⟨exchange t.rows.length, fun _ hi => exchange_of_le hi, ?_⟩
    cases x with
    | nothing e => cases hxi
    | replace n a => cases hxi
    | insert a lost =>
        cases y with
        | nothing e => cases hyi
        | replace n b => cases hyi
        | insert b lost' =>
            exact ⟨(answer_insert hyi).1, (answer_insert hxi).2, renumbered_create ht a b⟩
  · refine ⟨Equiv.refl Nat, fun _ _ => rfl, ?_, ?_, fun i => ?_⟩
    · rw [answer_apply h]
      exact (map_renumber_id _).symm
    · rw [answer_apply fun hyx => h hyx.symm]
      exact (map_renumber_id _).symm
    · rw [apply_comm hx hy hne h]
      simp [renumber_id]

end Engine.Deed

/-! ## Entries in either order -/

namespace RecordTable

variable {t : RecordTable H L}

/-- Of two headers that are put in, the numbers change places with the order. -/
theorem renumbered_enter (ht : t.Linked) (client other : String) (x y : Entry H L) :
    ((t.enter client (some x)).enter other (some y)).Renumbered (exchange t.headers.length)
      ((t.enter other (some y)).enter client (some x)) := by
  have hlength : ∀ (client : String) (x : Entry H L),
      (t.enter client (some x)).headers.length = t.headers.length + 1 := fun client x => by
    simp [enter]
  constructor
  · intro i
    simp only [header?_enter ht.enter, header?_enter ht, hlength]
    by_cases hi : i = t.headers.length + 1
    · simp [hi, StoredHeader.renumber]
    · by_cases hi' : i = t.headers.length + 2
      · simp [hi', StoredHeader.renumber]
      · have hfix : exchange t.headers.length i = i := exchange_of_ne hi hi'
        simp [hfix, hi, hi', header?_map_renumber hfix]
  · intro i
    simp only [linesOf_enter ht.enter, linesOf_enter ht, hlength]
    by_cases hi : i = t.headers.length + 1
    · simp [hi, StoredLine.renumber]
    · by_cases hi' : i = t.headers.length + 2
      · simp [hi', StoredLine.renumber]
      · have hfix : exchange t.headers.length i = i := exchange_of_ne hi hi'
        simp [hfix, hi, hi', linesOf_map_renumber hfix]

/-- Entries can be put in in either order: the records are the same up to the numbers of their headers. -/
theorem exists_renumbered_enter (ht : t.Linked) (client other : String) (x y : Option (Entry H L)) :
    ∃ g : Equiv.Perm Nat, (∀ i ≤ t.headers.length, g i = i) ∧
      ((t.enter client x).enter other y).Renumbered g ((t.enter other y).enter client x) := by
  cases x with
  | none => exact ⟨Equiv.refl Nat, fun _ _ => rfl, .refl _⟩
  | some x =>
      cases y with
      | none => exact ⟨Equiv.refl Nat, fun _ _ => rfl, .refl _⟩
      | some y =>
          exact ⟨exchange t.headers.length, fun _ hi => exchange_of_le hi,
            renumbered_enter ht client other x y⟩

end RecordTable

namespace Engine

/-! ## Calls in either order -/

namespace Call

variable {c d : Call H L} {s : Store H L}

/-- The call with operations out of service. -/
def under (c : Call H L) (down : List Operation) : Call H L := { c with faults := .ofDown down }

/-- What a call does on tables it also does behind a call of another key. -/
theorem exists_deed_behind (hc : c.faults.Unnumbered) (hd : d.faults.Unnumbered) (hkey : c.key ≠ d.key)
    (hs : s.attempts.Numbered) (hlinked : s.records.Linked) :
    ∃ deed entry, c.Does s deed entry ∧ c.Does (d.answer s).2 deed entry := by
  obtain ⟨deed, entry, hdoes⟩ := c.exists_deed hc (s.attempts.find c.document.filename c.interface.id)
  obtain ⟨other, y, hother⟩ := d.exists_deed hd (s.attempts.find d.document.filename d.interface.id)
  obtain ⟨hon, hanswer⟩ := hother s hs hlinked rfl
  refine ⟨deed, entry, hdoes s hs hlinked rfl, hdoes _ (answer_numbered hs) (answer_linked hlinked) ?_⟩
  rw [hanswer]
  exact Deed.find_apply hon (Ne.symm hkey)

end Call

/-- Behind any history, two calls of different keys can be made in either order, whatever is out of service:
each answers the same and stores the same entry in both orders, and the tables are the same in the end. Only
numbers may differ: `f` and `g` take those of one order to those of the other and keep all old ones. -/
theorem calls_commute (history : List (Call H L)) (down : List Operation) (c d : Call H L)
    (hkey : c.key ≠ d.key) :
    let c := c.under down
    let d := d.under down
    let s := storeAfter history
    let sc := storeAfter (history ++ [c])
    let sd := storeAfter (history ++ [d])
    let scd := storeAfter (history ++ [c, d])
    let sdc := storeAfter (history ++ [d, c])
    ∃ (f g : Equiv.Perm Nat) (x y : Option (Entry H L)),
      (∀ i ≤ s.attempts.rows.length, f i = i) ∧ (∀ i ≤ s.records.headers.length, g i = i) ∧
      (c.answer sd).1 = (c.answer s).1.map (·.renumber f) ∧
      (d.answer s).1 = (d.answer sc).1.map (·.renumber f) ∧
      sc.records = s.records.enter c.interface.client x ∧
      sdc.records = sd.records.enter c.interface.client x ∧
      sd.records = s.records.enter d.interface.client y ∧
      scd.records = sc.records.enter d.interface.client y ∧
      scd.Renumbered f g sdc := by
  intro c d s sc sd scd sdc
  have hc : c.faults.Unnumbered := Faults.unnumbered_ofDown down
  have hd : d.faults.Unnumbered := Faults.unnumbered_ofDown down
  have hs : s.attempts.Numbered := storeAfter_numbered history
  have hlinked : s.records.Linked := storeAfter_linked history
  obtain ⟨deed, x, ⟨hon, hcs⟩, _, hcd⟩ := Call.exists_deed_behind hc hd hkey hs hlinked
  obtain ⟨other, y, ⟨hon', hds⟩, _, hdc⟩ := Call.exists_deed_behind hd hc (Ne.symm hkey) hs hlinked
  have hsc : sc = (c.answer s).2 := storeAfter_concat history c
  have hsd : sd = (d.answer s).2 := storeAfter_concat history d
  have hscd : scd = (d.answer sc).2 := by
    rw [← storeAfter_concat, List.append_assoc, List.singleton_append]
  have hsdc : sdc = (c.answer sd).2 := by
    rw [← storeAfter_concat, List.append_assoc, List.singleton_append]
  obtain ⟨f, hf, hfirst, hsecond, hrows⟩ := Deed.exists_renumbered hs hon hon' hkey
  obtain ⟨g, hg, hrecords⟩ :=
    RecordTable.exists_renumbered_enter hlinked c.interface.client d.interface.client x y
  refine ⟨f, g, x, y, hf, hg, ?_⟩
  rw [hscd, hsdc, hsc, hsd, hcd, hdc, hds, hcs]
  exact ⟨hfirst, hsecond, rfl, rfl, rfl, rfl, hrows, hrecords⟩

theorem calls_commute_notice :
    let strategy := noticeStrategy "2024-03-01" fun _ _ => []
    let octets := Text.Utf8.encode "<ASN/>".toList
    let interface := Interface.new "7" "ACME" "notices" "ASN"
    let lost : Call _ _ := ⟨strategy, .ofDown [.update], ⟨"a.xml", octets⟩, interface⟩
    let c : Call _ _ := ⟨strategy, .ofDown [], ⟨"b.xml", octets⟩, interface⟩
    let d : Call _ _ := ⟨strategy, .ofDown [], ⟨"c.xml", octets⟩, interface⟩
    let scd := storeAfter ([lost] ++ [c.under [.saveLines], d.under [.saveLines]])
    let sdc := storeAfter ([lost] ++ [d.under [.saveLines], c.under [.saveLines]])
    c.key ≠ d.key ∧ scd ≠ sdc ∧ ∃ f g : Equiv.Perm Nat, scd.Renumbered f g sdc := by
  intro strategy octets interface lost c d scd sdc
  have hkey : c.key ≠ d.key := by decide
  have hdiffer : scd ≠ sdc := by decide +kernel
  obtain ⟨f, g, x, y, _, _, _, _, _, _, _, _, hsame⟩ := calls_commute [lost] [.saveLines] c d hkey
  exact ⟨hkey, hdiffer, f, g, hsame⟩

end Engine

end Interchange
