import MappingTables.Files.MappingsFile

/-!
# Keys of switched tables

The text under which a service keeps a switched table tells the hash of the source and the label
that the table was switched to.

* `Source.flatMap_hexByte_separator_inj`: a hash in hexadecimal digits ends where the separator is.
* `Source.text_switchedKey_inj`: sources with the same text of the key have the same hash, and the
  labels are the same.
* `Source.text_forGame_ne`: a table for a version of the game has another key.
-/

namespace MappingTables

namespace Source

/-! ## Hexadecimal digits -/

theorem digitChar_inj {m n : Nat} (hm : m < 16) (hn : n < 16)
    (h : Nat.digitChar m = Nat.digitChar n) : m = n := by
  have hall : ∀ m < 16, ∀ n < 16, Nat.digitChar m = Nat.digitChar n → m = n := by decide
  exact hall m hm n hn h

theorem digitChar_ne_separator {n : Nat} (hn : n < 16) : Nat.digitChar n ≠ '|' := by
  have hall : ∀ n < 16, Nat.digitChar n ≠ '|' := by decide
  exact hall n hn

/-- Both halves of a byte, of which `hexByte` makes a digit each, are single hexadecimal digits. -/
theorem halves_lt (b : UInt8) : b.toNat / 16 < 16 ∧ b.toNat % 16 < 16 := by
  have hb := b.toNat_lt
  omega

theorem hexByte_inj {b c : UInt8} (h : hexByte b = hexByte c) : b = c := by
  obtain ⟨hbhigh, hblow⟩ := halves_lt b
  obtain ⟨hchigh, hclow⟩ := halves_lt c
  rw [hexByte, hexByte, List.cons.injEq, List.cons.injEq] at h
  have hhigh := digitChar_inj hbhigh hchigh h.1
  have hlow := digitChar_inj hblow hclow h.2.1
  refine UInt8.toNat_inj.1 ?_
  omega

/-- The digits that `hexByte` gives can be told apart from the separator that follows them. -/
theorem flatMap_hexByte_separator_inj {hash hash' : List UInt8} {rest rest' : List Char}
    (h : hash.flatMap hexByte ++ '|' :: rest = hash'.flatMap hexByte ++ '|' :: rest') :
    hash = hash' ∧ rest = rest' := by
  induction hash generalizing hash' with
  | nil =>
    cases hash' with
    | nil => exact ⟨rfl, (List.cons.inj h).2⟩
    | cons c hash' => exact absurd (List.cons.inj h).1.symm (digitChar_ne_separator (halves_lt c).1)
  | cons b hash ih =>
    cases hash' with
    | nil => exact absurd (List.cons.inj h).1 (digitChar_ne_separator (halves_lt b).1)
    | cons c hash' =>
      rw [List.flatMap_cons, List.flatMap_cons, List.append_assoc, List.append_assoc] at h
      obtain ⟨hbyte, h⟩ := List.append_inj h rfl
      obtain ⟨rfl, rfl⟩ := ih h
      exact ⟨congrArg (· :: hash) (hexByte_inj hbyte), rfl⟩

/-! ## Keys -/

variable {s t : Source} {label label' : String}

/-- The characters of the `text` of a key that names a source. -/
theorem toList_text_of_source {key : TableKey} (h : key.source = s.hashText) :
    key.text.toList = s.hash.flatMap hexByte ++ '|' ::
      ([';'].intercalate (key.steps.map String.toList) ++
        '|' :: (key.gameVersion.getD "").toList) := by
  rw [TableKey.text, h, hashText]
  simp only [String.toList_append, String.toList_ofList, String.toList_intercalate,
    List.append_assoc]
  rfl

theorem toList_text_switchedKey (s : Source) (label : String) :
    (s.switchedKey label).text.toList =
      s.hash.flatMap hexByte ++ '|' :: ("switch to ".toList ++ (label.toList ++ ['|'])) := by
  rw [toList_text_of_source rfl]
  simp [switchedKey, TableKey.ofSource, TableKey.step]

/-- The `text` of a `switchedKey` tells the hash and the label. -/
theorem text_switchedKey_inj (h : (s.switchedKey label).text = (t.switchedKey label').text) :
    s.hash = t.hash ∧ label = label' := by
  have hchars := congrArg String.toList h
  rw [toList_text_switchedKey, toList_text_switchedKey] at hchars
  obtain ⟨hhash, hrest⟩ := flatMap_hexByte_separator_inj hchars
  refine ⟨hhash, String.toList_inj.1 ?_⟩
  exact List.append_cancel_right (List.append_cancel_left hrest)

/-- The key `forGame` of a version is not the `switchedKey` of a table: where one names a step, the
other one names none. -/
theorem text_forGame_ne (s t : Source) (version label : String) :
    ((TableKey.ofSource s).forGame version).text ≠ (t.switchedKey label).text := by
  have hsource : ((TableKey.ofSource s).forGame version).source = s.hashText := rfl
  intro h
  have h := congrArg String.toList h
  rw [toList_text_of_source hsource, toList_text_switchedKey] at h
  have hrest := (flatMap_hexByte_separator_inj h).2
  cases hrest

/-- Sources with the same hash have the same `switchedKey`. -/
theorem switchedKey_congr (h : s.hash = t.hash) (label : String) :
    s.switchedKey label = t.switchedKey label := by
  rw [switchedKey, switchedKey, TableKey.ofSource, TableKey.ofSource, hashText, hashText, h]

end Source

end MappingTables
