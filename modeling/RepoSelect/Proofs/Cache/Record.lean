import RepoSelect.Cache.Record
import RepoSelect.Proofs.Instant.RoundTrip
import RepoSelect.Proofs.Json.Cut

/-!
# Reading a cache record that was written

A record is read back from the text of its cache file (`parse_print`), whatever is written in its
repositories and however many there are. Reading follows writing: a text, a list of texts, a
repository, a table of repositories and the record itself, each from what the one before gives.

A file that has only the beginning of this text is no record (`parse_extract`).
-/

namespace RepoSelect

open Document
open Json (Value)

theorem readText_string (text : String) : readText (Value.string text) = .ok text := rfl

theorem readItems_map_string (texts : List String) (i : Nat) :
    readItems readText i (texts.map Value.string) = .ok texts := by
  induction texts generalizing i with
  | nil => rfl
  | cons text texts ih =>
    simp [readItems, readText_string, ih, bind, Except.bind]

theorem readList_map_string (texts : List String) :
    readList readText (Value.array (texts.map .string)) = .ok texts := by
  have hitems : atCause Value (items (Value.array (texts.map .string)))
      = .ok (texts.map .string) := rfl
  simp [readList, hitems, readItems_map_string, bind, Except.bind]

namespace Repository

theorem ofDocument_toJson (r : Repository) : ofDocument r.toJson = .ok r := by
  have hshape : shape "struct Repository" r.toJson = .ok (.members
      [ (Value.string "name", .string r.name), (.string "description", .string r.description),
        (.string "public", .bool r.isPublic), (.string "project", .string r.project),
        (.string "default_branch", .string r.defaultBranch),
        (.string "labels", .array (r.labels.map .string)) ]) := rfl
  have hname : ∀ name, readTextAs "field identifier" (Value.string name) = .ok name := fun _ => rfl
  have hflag : ∀ b, readFlag (Value.bool b) = .ok b := fun _ => rfl
  simp [ofDocument, readRecord, hshape, fill, slots, hname, hflag, Slot.spellings,
    readText_string, readList_map_string, bind, Except.bind]

theorem isPlain_toJson (r : Repository) : r.toJson.isPlain = true := by
  have hlabels : Value.allPlain (r.labels.map .string) = true := by
    induction r.labels with
    | nil => rfl
    | cons label labels ih => simp [Value.allPlain, Value.isPlain, ih]
  simp [toJson, Value.isPlain, Value.membersPlain, hlabels]

end Repository

namespace Catalog

theorem readEntries_map_toJson (l : List (String × Repository)) :
    readEntries Repository.ofDocument (l.map fun e => (Value.string e.1, e.2.toJson)) = .ok l := by
  induction l with
  | nil => rfl
  | cons e l ih =>
    simp [readEntries, readText_string, Repository.ofDocument_toJson, ih, bind, Except.bind]

theorem ofDocument_toJson (c : Catalog) : ofDocument (toJson c) = .ok c := by
  have hentries : atCause Value (entries (toJson c))
      = .ok (c.toList.map fun e => (Value.string e.1, e.2.toJson)) := by
    show Except.ok (Value.keyed _) = _
    rw [Value.keyed, List.map_map]
    rfl
  simp [ofDocument, readTable, hentries, readEntries_map_toJson, NameMap.ofList_toList, bind,
    Except.bind]

theorem isPlain_toJson (c : Catalog) : (toJson c).isPlain = true := by
  rw [toJson, Value.isPlain]
  induction c.toList with
  | nil => rfl
  | cons entry entries ih => simp [Value.membersPlain, Repository.isPlain_toJson, ih]

end Catalog

namespace CacheRecord

/-- The record as its text has it. -/
def asWritten (r : CacheRecord) : CacheRecord := { r with updatedAt := r.updatedAt.asWritten }

@[simp] theorem asWritten_mk_coe (t : Instant) (c : Catalog) :
    (⟨t, c⟩ : CacheRecord).asWritten = ⟨t, c⟩ := by
  rw [asWritten, Timestamp.asWritten_coe]

theorem ofDocument_updatedAt (t : Timestamp) :
    Instant.ofDocument (Value.string t.print) = .ok t.asWritten := by
  have htext : readTextAs "an RFC 3339 formatted date and time string" (Value.string t.print)
      = .ok t.print := rfl
  simp only [Instant.ofDocument, htext, Instant.read_print, bind, Except.bind]
  rfl

theorem ofDocument_toJson (r : CacheRecord) : ofDocument r.toJson = .ok r.asWritten := by
  have hshape : shape "struct CacheRecord" r.toJson = .ok (.members
      [ (Value.string "updated_at", .string r.updatedAt.print),
        (.string "repositories", Catalog.toJson r.repositories) ]) := rfl
  have hname : ∀ name, readTextAs "field identifier" (Value.string name) = .ok name := fun _ => rfl
  simp [ofDocument, readRecord, hshape, fill, slots, hname, Slot.spellings,
    ofDocument_updatedAt, Catalog.ofDocument_toJson, asWritten, bind, Except.bind]

theorem isPlain_toJson (r : CacheRecord) : r.toJson.isPlain = true := by
  simp [toJson, Value.isPlain, Value.membersPlain, Catalog.isPlain_toJson]

/-- **A record is read back from its text** as it is written. -/
theorem parse_print (r : CacheRecord) : parse r.print.toUTF8 = .ok r.asWritten := by
  rw [parse, Json.decodeBytes, Json.signsOf_toUTF8, Json.decodeSigns, print,
    Json.readSigns_print (isPlain_toJson r)]
  exact ofDocument_toJson r

theorem toUTF8_print (r : CacheRecord) :
    r.print.toUTF8 = (Json.pretty 0 r.toJson).utf8Encode := by
  simp [print, Json.print]

theorem size_print_pos (r : CacheRecord) : 0 < r.print.toUTF8.size := by
  obtain ⟨c, cs, hhead, -⟩ := Json.pretty_head (isPlain_toJson r) 0
  have hpos := c.utf8Size_pos
  rw [toUTF8_print, hhead, List.utf8Encode_cons, ByteArray.size_append,
    Json.size_utf8Encode_singleton]
  omega

/-- **What is left of a record that was cut off is no record.** -/
theorem parse_extract (r : CacheRecord) {n : Nat} (hn : n < r.print.toUTF8.size) :
    Json.Refused (parse (r.print.toUTF8.extract 0 n)) := by
  rw [toUTF8_print] at hn ⊢
  obtain ⟨message, hmessage⟩ := Json.readSigns_cut (isPlain_toJson r) (Json.cut_signsOf hn)
  rw [parse, Json.decodeBytes, Json.decodeSigns, hmessage]
  exact ⟨_, rfl⟩

end CacheRecord

end RepoSelect
