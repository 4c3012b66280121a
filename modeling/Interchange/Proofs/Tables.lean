import Interchange.Store.Records

/-!
# What the tables keep

An attempt stands at its number, and a write touches one number. Headers are counted from one, and every
line has a header of its own client.
-/

namespace Interchange

/-! ## Attempts -/

namespace AttemptTable

variable {t t' : AttemptTable} {a b : Attempt} {i j : Nat} {filename interfaceId : String}

/-- Every attempt stands at its number. -/
def Numbered (t : AttemptTable) : Prop := ∀ i a, t.get? i = some a → a.id = some i

theorem get?_create_of_ne (h : j ≠ (t.create a).1) : (t.create a).2.get? j = t.get? j := by
  cases j with
  | zero => rfl
  | succ n =>
      have hn : n ≠ t.rows.length := fun e => h (congrArg (· + 1) e)
      show (t.rows ++ [_])[n]? = t.rows[n]?
      rw [List.getElem?_append]
      split
      · rfl
      · rw [List.getElem?_eq_none (by simp only [List.length_singleton]; omega),
          List.getElem?_eq_none (by omega)]

theorem get?_create_cases (h : (t.create a).2.get? j = some b) :
    t.get? j = some b ∨ b = { a with id := some (t.create a).1 } := by
  by_cases hj : j = (t.create a).1
  · rw [hj, get?_create] at h
    exact Or.inr (Option.some.inj h).symm
  · rw [get?_create_of_ne hj] at h
    exact Or.inl h

theorem exists_update (h : t.get? i = some b) (ha : a.id = some i) : ∃ t', t.update a = .ok t' := by
  refine ⟨⟨t.rows.set (i - 1) a⟩, ?_⟩
  rw [update, ha]
  simp [h]

theorem update_eq_ok (ha : a.id = some i) (h : t.update a = .ok t') :
    (t.get? i).isSome ∧ t' = ⟨t.rows.set (i - 1) a⟩ := by
  simp only [update, ha] at h
  split at h
  · rename_i hi
    cases h
    exact ⟨hi, rfl⟩
  · cases h

theorem get?_update (ha : a.id = some i) (h : t.update a = .ok t') : t'.get? i = some a := by
  obtain ⟨hi, rfl⟩ := update_eq_ok ha h
  cases i with
  | zero => cases hi
  | succ n =>
      have hn : n < t.rows.length := by simpa [get?] using hi
      simp [get?, List.getElem?_set_self hn]

theorem get?_update_of_ne (ha : a.id = some i) (h : t.update a = .ok t') (hj : j ≠ i) :
    t'.get? j = t.get? j := by
  obtain ⟨hi, rfl⟩ := update_eq_ok ha h
  cases j with
  | zero => rfl
  | succ n =>
      cases i with
      | zero => cases hi
      | succ m =>
          have hmn : m ≠ n := fun e => hj (congrArg (· + 1) e.symm)
          simp [get?, hmn]

/-- An attempt that is found stands at its number, and it is one for the file and the interface. -/
theorem Numbered.find (ht : t.Numbered) (h : t.find filename interfaceId = some a) :
    ∃ i, a.id = some i ∧ t.get? i = some a ∧
      a.filename = filename ∧ a.interfaceId = interfaceId := by
  obtain ⟨n, hn⟩ := List.getElem?_of_mem (List.mem_reverse.1 (List.mem_of_find?_eq_some h))
  have hkey := List.find?_some h
  simp only [Bool.and_eq_true, beq_iff_eq] at hkey
  exact ⟨n + 1, ht (n + 1) a hn, hn, hkey.1, hkey.2⟩

theorem Numbered.empty : AttemptTable.empty.Numbered := by
  intro i a h
  cases i <;> cases h

theorem Numbered.create (ht : t.Numbered) (a : Attempt) : (t.create a).2.Numbered := by
  intro j b h
  by_cases hj : j = (t.create a).1
  · rw [hj, get?_create] at h
    cases h
    rw [hj]
  · rw [get?_create_of_ne hj] at h
    exact ht j b h

theorem Numbered.update (ht : t.Numbered) (ha : a.id = some i) (h : t.update a = .ok t') :
    t'.Numbered := by
  intro j b hb
  by_cases hj : j = i
  · rw [hj, get?_update ha h] at hb
    cases hb
    rw [hj, ha]
  · rw [get?_update_of_ne ha h hj] at hb
    exact ht j b hb

/-- An attempt has the place of number `n` in a new table, which holds the other attempts of an old one. -/
structure Placed (old new : AttemptTable) (a : Attempt) (n : Nat) : Prop where
  id : a.id = some n
  present : (new.get? n).isSome
  numbered : new.Numbered
  others : ∀ j, j ≠ n → new.get? j = old.get? j

theorem Numbered.placed_find (ht : t.Numbered) (h : t.find filename interfaceId = some a) :
    ∃ n, t.Placed t a n := by
  obtain ⟨n, hid, hn, _⟩ := ht.find h
  exact ⟨n, hid, by rw [hn]; rfl, ht, fun _ _ => rfl⟩

theorem Numbered.placed_create (ht : t.Numbered) (a : Attempt) :
    t.Placed (t.create a).2 { a with id := some (t.create a).1 } (t.create a).1 :=
  ⟨rfl, by rw [get?_create]; rfl, ht.create a, fun _ hj => get?_create_of_ne hj⟩

theorem Placed.exists_update (h : t.Placed t' a i) : ∃ rows, t'.update a = .ok rows := by
  obtain ⟨b, hb⟩ := Option.isSome_iff_exists.1 h.present
  exact AttemptTable.exists_update hb h.id

theorem Placed.update {rows : AttemptTable} (h : t.Placed t' a i) (hrows : t'.update a = .ok rows) :
    t.Placed rows a i := by
  refine ⟨h.id, by rw [get?_update h.id hrows]; rfl, h.numbered.update h.id hrows, fun j hj => ?_⟩
  rw [get?_update_of_ne h.id hrows hj, h.others j hj]

end AttemptTable

/-! ## Records -/

namespace RecordTable

variable {H L : Type} {t t' : RecordTable H L} {client : String} {record : H} {records : List L}
  {id : Nat} {h : StoredHeader H}

/-- Headers are counted from one, and every line has a header of its client. -/
structure Linked (t : RecordTable H L) : Prop where
  counted : t.headers.map (·.id) = List.range' 1 t.headers.length
  linked : ∀ line ∈ t.lines, ∃ h, t.header? line.headerId = some h ∧ h.clientId = line.clientId

/-- The next number is the number of no header. -/
theorem Linked.fresh (ht : t.Linked) (hh : h ∈ t.headers) : h.id ≠ t.headers.length + 1 := by
  have hid : h.id ∈ List.range' 1 t.headers.length := ht.counted ▸ List.mem_map_of_mem hh
  have hle := (List.mem_range'_1.1 hid).2
  omega

theorem header?_saveHeader (ht : t.Linked) (client : String) (record : H) :
    (t.saveHeader client record).2.header? (t.headers.length + 1) =
      some ⟨t.headers.length + 1, client, record⟩ := by
  have hnone : t.headers.find? (·.id == t.headers.length + 1) = none := by
    rw [List.find?_eq_none]
    exact fun h hh he => ht.fresh hh (by simpa using he)
  simp [saveHeader, header?, List.find?_append, hnone]

theorem header?_saveHeader_of_some (hid : t.header? id = some h) :
    (t.saveHeader client record).2.header? id = some h := by
  rw [header?] at hid
  simp [saveHeader, header?, List.find?_append, hid]

theorem saveLines_of_header? (hid : t.header? id = some h) :
    t.saveLines id client records =
      .ok { t with lines := t.lines ++ records.map fun r => ⟨id, client, r⟩ } := by
  simp [saveLines, hid]

theorem Linked.empty : (RecordTable.empty : RecordTable H L).Linked where
  counted := rfl
  linked := by
    intro line hline
    cases hline

theorem Linked.saveHeader (ht : t.Linked) : (t.saveHeader client record).2.Linked where
  counted := by
    simp [RecordTable.saveHeader, ht.counted, List.range'_1_concat, Nat.add_comm]
  linked := by
    intro line hline
    obtain ⟨h, hid, hclient⟩ := ht.linked line hline
    exact ⟨h, header?_saveHeader_of_some hid, hclient⟩

theorem Linked.saveLines (ht : t.Linked) (hid : t.header? id = some h) (hclient : h.clientId = client)
    (hsave : t.saveLines id client records = .ok t') : t'.Linked := by
  rw [saveLines_of_header? hid] at hsave
  cases hsave
  refine ⟨ht.counted, fun line hline => ?_⟩
  rcases List.mem_append.1 hline with hold | hnew
  · exact ht.linked line hold
  · obtain ⟨r, _, rfl⟩ := List.mem_map.1 hnew
    exact ⟨h, hid, hclient⟩

end RecordTable

end Interchange
