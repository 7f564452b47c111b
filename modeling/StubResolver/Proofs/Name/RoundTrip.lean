/-
# Names that were written

Writing a name forgets the empty pieces of its text and nothing else.  The name without them,
its normal form, has the same labels (`labels_normal`), and so the same wire form, and reading
the wire form gives the normal form wherever it stands.

Since the reader also tells where a name ends, wire forms are told apart without knowing where
they end: they agree exactly when the labels do, and none of them begins another one
(`decode_written`).
-/
import StubResolver.Proofs.Name.WireForm

namespace StubResolver.Name

/-! ## The normal form -/

lemma filter_isEmpty_eq_self {pieces : List (List Char)} (h : [] ∉ pieces) :
    pieces.filter (!·.isEmpty) = pieces := by
  rw [List.filter_eq_self]
  intro piece hpiece
  have hne : piece ≠ [] := ne_of_mem_of_not_mem hpiece h
  simpa using hne

/-- A label of a name has at least one character and no dot. -/
lemma label_of_mem_labels {name : Name} {label : String} (h : label ∈ name.labels) :
    label.toList ≠ [] ∧ '.' ∉ label.toList := by
  obtain ⟨piece, hpiece, rfl⟩ := List.mem_map.1 h
  obtain ⟨hsplit, hne⟩ := List.mem_filter.1 hpiece
  rw [String.toList_ofList]
  refine ⟨?_, not_mem_of_mem_splitOn hsplit⟩
  simpa using hne

/-- Labels that are joined are the labels of the name they make. -/
lemma labels_ofLabels {labels : List String}
    (h : ∀ label ∈ labels, label.toList ≠ [] ∧ '.' ∉ label.toList) :
    (ofLabels labels).labels = labels := by
  have hpieces : ∀ piece ∈ labels.map String.toList, piece ≠ [] ∧ '.' ∉ piece := by
    intro piece hpiece
    obtain ⟨label, hlabel, rfl⟩ := List.mem_map.1 hpiece
    exact h label hlabel
  have htext : (ofLabels labels).text.toList = ['.'].intercalate (labels.map String.toList) :=
    String.toList_intercalate
  rw [Name.labels, htext]
  by_cases hnil : labels = []
  · -- the root is a single empty piece, which is left out
    rw [hnil]
    rfl
  · have hsplit : (['.'].intercalate (labels.map String.toList)).splitOn '.' =
        labels.map String.toList := by
      refine List.splitOn_intercalate '.' (fun piece hpiece => (hpieces piece hpiece).2) ?_
      simpa using hnil
    have hfilter : (labels.map String.toList).filter (!·.isEmpty) = labels.map String.toList :=
      filter_isEmpty_eq_self fun hempty => (hpieces [] hempty).1 rfl
    have hmap : String.ofList ∘ String.toList = id := by
      funext text
      exact String.ofList_toList
    rw [hsplit, hfilter, List.map_map, hmap, List.map_id]

@[simp] lemma labels_normal (name : Name) : name.normal.labels = name.labels :=
  labels_ofLabels fun _ hlabel => label_of_mem_labels hlabel

@[simp] lemma segments_normal (name : Name) : name.normal.segments = name.segments := by
  rw [segments_eq, labels_normal, ← segments_eq]

/-- A name is its own normal form if no piece of its text is empty. -/
lemma normal_eq_self {name : Name} (h : [] ∉ name.text.toList.splitOn '.') :
    name.normal = name := by
  have hmap : String.toList ∘ String.ofList = id := by
    funext text
    exact String.toList_ofList
  have htext : name.normal.text.toList = name.text.toList := by
    rw [normal, ofLabels, String.toList_intercalate, labels, filter_isEmpty_eq_self h,
      List.map_map, hmap, List.map_id]
    exact List.intercalate_splitOn '.'
  obtain ⟨text⟩ := name
  exact congrArg Name.mk (String.toList_inj.1 htext)

lemma encode_normal {name : Name} {bytes : Bytes} (h : encode name = .ok bytes) :
    encode name.normal = .ok bytes := by
  rw [encode_eq_ok_iff] at h ⊢
  rw [WithinLimits, segments_normal]
  exact h

/-! ## Telling wire forms apart -/

/-- What was written is read back in the midst of any bytes. -/
lemma decode_append {name : Name} {bytes : Bytes} (h : encode name = .ok bytes)
    (before after : Bytes) : decode (before ++ bytes ++ after) before.length =
      .ok (name.normal, before.length + bytes.length) := by
  obtain ⟨hlimits, rfl⟩ := encode_eq_ok_iff.1 h
  rw [length_wireForm]
  refine decode_of_holds hlimits ?_
  rw [Holds, List.append_assoc, List.drop_left]
  exact List.prefix_append _ _

/-- Of two wire forms that begin the same message each is the other. -/
lemma labels_eq_of_begins {name other : Name} {bytes otherBytes : Bytes}
    (h : encode name = .ok bytes) (hother : encode other = .ok otherBytes)
    (hpre : bytes <+: otherBytes) : name.labels = other.labels := by
  obtain ⟨after, rfl⟩ := hpre
  have hread := decode_append h [] after
  have hread' := decode_append hother [] []
  rw [List.nil_append, List.append_nil, ← List.nil_append (bytes ++ after), ← List.append_assoc,
    hread] at hread'
  obtain ⟨hnormal, -⟩ := Prod.mk.inj (Except.ok.inj hread')
  rw [← labels_normal name, hnormal, labels_normal]

lemma encode_eq_of_labels {name other : Name} {bytes otherBytes : Bytes}
    (h : encode name = .ok bytes) (hother : encode other = .ok otherBytes)
    (hlabels : name.labels = other.labels) : bytes = otherBytes := by
  obtain ⟨-, rfl⟩ := encode_eq_ok_iff.1 h
  obtain ⟨-, rfl⟩ := encode_eq_ok_iff.1 hother
  rw [segments_eq, segments_eq, hlabels]

/-- **A name that was written is read back in its normal form**, in the midst of any bytes, and
the normal form is written the same way.  Names are written alike exactly when their labels
agree, and what is written for one never goes on as what is written for another. -/
theorem decode_written (name : Name) (bytes : Bytes) (h : encode name = .ok bytes) :
    (∀ before after, decode (before ++ bytes ++ after) before.length =
      .ok (name.normal, before.length + bytes.length)) ∧
    ([] ∉ name.text.toList.splitOn '.' → name.normal = name) ∧
    encode name.normal = .ok bytes ∧
    ∀ (other : Name) otherBytes, encode other = .ok otherBytes →
      (bytes = otherBytes ↔ name.labels = other.labels) ∧
      (bytes <+: otherBytes → bytes = otherBytes) := by
  refine ⟨decode_append h, normal_eq_self, encode_normal h, ?_⟩
  intro other otherBytes hother
  refine ⟨⟨?_, encode_eq_of_labels h hother⟩, ?_⟩
  · intro heq
    exact labels_eq_of_begins h hother (heq ▸ List.prefix_rfl)
  · intro hpre
    exact encode_eq_of_labels h hother (labels_eq_of_begins h hother hpre)

/-- The case of a name with a letter of two bytes and with dots at both ends and doubled. -/
theorem decode_written_dots :
    encode (⟨".é..ab."⟩ : Name) = .ok [2, 195, 169, 2, 97, 98, 0] ∧
      decode ([1] ++ [2, 195, 169, 2, 97, 98, 0] ++ [2]) 1 = .ok (⟨"é.ab"⟩, 8) ∧
      encode (⟨"é.ab"⟩ : Name) = .ok [2, 195, 169, 2, 97, 98, 0] := by
  have hbytes : encode (⟨".é..ab."⟩ : Name) = .ok [2, 195, 169, 2, 97, 98, 0] := rfl
  obtain ⟨hread, -, hagain, -⟩ := decode_written ⟨".é..ab."⟩ _ hbytes
  exact ⟨hbytes, hread [1] [2], hagain⟩

end StubResolver.Name
