/-
# Labels in front of a pointer

A name that goes on behind a pointer is what its own labels and the name at the target of the
pointer make together.  This holds however the name at the target is put together, and wherever
its own pointers lead: reading the whole is reading both parts and joining them (`prepend`), and
it ends behind the pointer.

Both parts share the limits.  The whole is read exactly if the labels and those at the target
keep to the length of a name together, and if the pointers at the target leave one for the
pointer in front of them; otherwise it is refused for the limit that it goes over
(`decode_splice`).
-/
import StubResolver.Proofs.Name.Dots

namespace StubResolver

/-- From `start` on stand labels in their wire form, and behind them, at `place`, a pointer back
to `target`. -/
structure PointerBehind (message : Bytes) (start : Nat) (texts : List String) (place : Nat)
    (target : UInt16) : Prop where
  isLabel : ∀ text ∈ texts, Name.IsLabel (Name.textBytes text)
  holds : Holds message start ((texts.map Name.textBytes).flatMap Segment.labelBytes)
  place_eq : place = start + ((texts.map Name.textBytes).flatMap Segment.labelBytes).length
  pointer : SegmentAt message place (.pointer target) (place + 2)
  back : target.toNat < place

/-- The labels are spelled before those at the target. -/
lemma PointerBehind.spells {message : Bytes} {start place hops finish : Nat}
    {texts : List String} {target : UInt16} {labels : List Bytes}
    (h : PointerBehind message start texts place target)
    (htarget : Spells message target.toNat labels hops finish) :
    Spells message start (texts.map Name.textBytes ++ labels) (hops + 1) (place + 2) := by
  refine Name.spells_append ?_ h.holds ?_
  · intro label hlabel
    obtain ⟨text, htext, rfl⟩ := List.mem_map.1 hlabel
    exact h.isLabel text htext
  · rw [← h.place_eq]
    exact .pointer h.pointer h.back htarget

namespace Name

/-- The name with labels in front of it. -/
def prepend (texts : List String) (name : Name) : Name :=
  if name = root then ofLabels texts else ofLabels (texts ++ [name.text])

@[simp] lemma ofLabels_nil : ofLabels [] = root := by
  rw [ofLabels, String.intercalate_nil, root]

lemma ofLabels_cons_ne_root {text : String} (texts : List String) (hne : text ≠ "") :
    ofLabels (text :: texts) ≠ root := by
  intro h
  have htext : ".".intercalate (text :: texts) = "" := congrArg Name.text h
  cases texts with
  | nil => exact hne (by simpa using htext)
  | cons next texts =>
    rw [String.intercalate_cons_cons, String.append_eq_empty_iff,
      String.append_eq_empty_iff] at htext
    exact hne htext.1.1

/-- Joining the joined labels of a name with others is joining all of them. -/
lemma prepend_ofLabels (texts : List String) {others : List String}
    (hne : ∀ text ∈ others, text ≠ "") : (ofLabels others).prepend texts =
      ofLabels (texts ++ others) := by
  cases others with
  | nil => simp [prepend]
  | cons other others =>
    rw [prepend, if_neg (ofLabels_cons_ne_root others (hne other List.mem_cons_self))]
    cases texts with
    | nil => simp [ofLabels]
    | cons text texts =>
      rw [ofLabels, ofLabels, ofLabels, String.intercalate_append_of_ne_nil (by simp) (by simp),
        String.intercalate_append_of_ne_nil (by simp) (by simp), String.intercalate_singleton]

lemma wireLength_append (labels others : List Bytes) :
    wireLength (labels ++ others) = (labels.map (·.length + 1)).sum + wireLength others := by
  rw [wireLength_eq_sum, wireLength_eq_sum, List.map_append, List.sum_append]
  omega

/-- **Following a pointer splices in the name at its target.**  Labels in front of a pointer are
read together with the name to which it leads if the two keep to the limits together, and the
next offset is the one behind the pointer.  Otherwise the whole is refused, as too long or for
the number of its pointers. -/
theorem decode_splice (message : Bytes) (start place : Nat) (texts : List String)
    (target : UInt16) (name : Name) (finish : Nat) (labels : List Bytes) (hops total : Nat)
    (h : PointerBehind message start texts place target)
    (hname : decode message target.toNat = .ok (name, finish))
    (hspells : Spells message target.toNat labels hops finish)
    (htotal : total = ((texts.map textBytes).map (·.length + 1)).sum + wireLength labels) :
    (total ≤ 255 ∧ hops + 1 ≤ 128 →
      decode message start = .ok (name.prepend texts, place + 2)) ∧
    (¬(total ≤ 255 ∧ hops + 1 ≤ 128) →
      ∃ offset flaw, decode message start = .error (.malformedName offset flaw) ∧
        (flaw = .tooLong ∧ 255 < total ∨ flaw = .tooManyPointers ∧ 128 < hops + 1)) := by
  obtain ⟨others, count, rfl, hread, -, -⟩ := spells_of_decode hname
  obtain rfl := hread.unique hspells
  have hne : ∀ text ∈ others, text ≠ "" := by
    rintro text htext rfl
    exact (hspells.isLabel _ (List.mem_map_of_mem htext)).ne_nil rfl
  have hwhole := h.spells hspells
  rw [← List.map_append] at hwhole
  rw [← wireLength_append, ← List.map_append] at htotal
  subst htotal
  constructor
  · rintro ⟨hlength, hhops⟩
    rw [prepend_ofLabels texts hne]
    exact decode_of_spells hwhole hlength hhops
  · intro hover
    refine decode_overLimits hwhole ?_
    rw [maxNameLength, maxPointerHops]
    omega

/-- The case of a chain of two pointers. -/
theorem decode_splice_chained :
    decode [3, 101, 100, 117, 0, 1, 98, 192, 0, 1, 97, 192, 5] 5 = .ok (⟨"b.edu"⟩, 9) ∧
      decode [3, 101, 100, 117, 0, 1, 98, 192, 0, 1, 97, 192, 5] 9 = .ok (⟨"a.b.edu"⟩, 13) := by
  have hname : decode [3, 101, 100, 117, 0, 1, 98, 192, 0, 1, 97, 192, 5] 5 =
      .ok (⟨"b.edu"⟩, 9) := by decide +kernel
  have hfirst : PointerBehind [3, 101, 100, 117, 0, 1, 98, 192, 0, 1, 97, 192, 5] 5 ["b"] 7 0 :=
    ⟨by decide, List.prefix_append _ _, rfl,
      segmentAt_of_holds_pointer (by decide) (List.prefix_append _ _), by decide⟩
  have hsecond : PointerBehind [3, 101, 100, 117, 0, 1, 98, 192, 0, 1, 97, 192, 5] 9 ["a"] 11 5 :=
    ⟨by decide, List.prefix_append _ _, rfl,
      segmentAt_of_holds_pointer (by decide) List.prefix_rfl, by decide⟩
  have hedu : Spells [3, 101, 100, 117, 0, 1, 98, 192, 0, 1, 97, 192, 5] (0 : UInt16).toNat
      [[101, 100, 117]] 0 5 :=
    spells_of_holds (by simp [IsLabel, maxLabelLength]) (List.prefix_append _ _)
  obtain ⟨hread, -⟩ := decode_splice _ 9 11 ["a"] 5 ⟨"b.edu"⟩ 9 [[98], [101, 100, 117]] 1 9 hsecond
    hname (hfirst.spells hedu) (by decide)
  exact ⟨hname, hread ⟨by decide, by decide⟩⟩

end Name

end StubResolver
