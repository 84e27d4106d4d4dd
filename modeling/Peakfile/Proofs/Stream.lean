/-
# Streams as a whole

What a peak file should hold is said of the frames of a stream as one list, with no
buffers and no open windows:

* `Cut.whole` and `Cut.rest` cut a list into groups of equal length and what is left;
  `Cut.all` keeps what is left as a last, shorter group;
* `SampleBuffer.Fits` and `SampleBuffer.frames` say which buffers hold frames, and which;
* `ChannelExtrema.ofFrames` folds the samples of each channel, one channel after the other.

The laws here tell how these change when frames are added at the end.
-/
import Mathlib
import Peakfile.Extraction

namespace Peakfile

/-! ## Cutting lists -/

namespace Cut

variable {α : Type}

/-- The groups of `n` that a list is cut into from its start, in order. -/
def whole (n : Nat) (l : List α) : List (List α) :=
  (List.range (l.length / n)).map fun i => (l.drop (i * n)).take n

/-- What is left behind the groups of `n`. -/
def rest (n : Nat) (l : List α) : List α := l.drop (l.length / n * n)

/-- All groups of a list, the last of them shorter if the length is no multiple of `n`. -/
def all (n : Nat) (l : List α) : List (List α) :=
  whole n l ++ if rest n l = [] then [] else [rest n l]

theorem length_whole (n : Nat) (l : List α) : (whole n l).length = l.length / n := by
  simp [whole]

theorem length_rest (n : Nat) (l : List α) : (rest n l).length = l.length % n := by
  rw [rest, List.length_drop, Nat.mod_eq_sub_div_mul]

theorem rest_eq_nil_iff (n : Nat) (l : List α) : rest n l = [] ↔ l.length % n = 0 := by
  rw [← length_rest, List.length_eq_zero_iff]

/-- `N` entries make `N / n` groups, and one more if `n` does not divide `N`. -/
theorem length_all (n : Nat) (l : List α) :
    (all n l).length = l.length / n + if l.length % n = 0 then 0 else 1 := by
  rw [all, List.length_append, length_whole]
  by_cases h : l.length % n = 0
  · rw [if_pos ((rest_eq_nil_iff n l).2 h), if_pos h, List.length_nil]
  · rw [if_neg (mt (rest_eq_nil_iff n l).1 h), if_neg h, List.length_singleton]

theorem whole_of_lt {n : Nat} {l : List α} (h : l.length < n) : whole n l = [] := by
  simp [whole, Nat.div_eq_of_lt h]

theorem rest_of_lt {n : Nat} {l : List α} (h : l.length < n) : rest n l = l := by
  simp [rest, Nat.div_eq_of_lt h]

/-- Where nothing is left, all groups are full. -/
theorem all_of_rest_eq_nil {n : Nat} {l : List α} (h : rest n l = []) : all n l = whole n l := by
  rw [all, if_pos h, List.append_nil]

/-- What is left makes one more group. -/
theorem all_of_rest_ne_nil {n : Nat} {l : List α} (h : rest n l ≠ []) :
    all n l = whole n l ++ [rest n l] := by
  rw [all, if_neg h]

/-- Group number `i` has the entries from `i * n` on. -/
theorem getElem_whole {n : Nat} {l : List α} {i : Nat} (h : i < (whole n l).length) :
    (whole n l)[i] = (l.drop (i * n)).take n ∧ (i + 1) * n ≤ l.length := by
  constructor
  · simp [whole]
  · rw [length_whole] at h
    exact (Nat.mul_le_mul_right _ h).trans (Nat.div_mul_le_self _ _)

/-- So has the shorter group at the end. -/
theorem getElem_all {n : Nat} (hn : 0 < n) {l : List α} {i : Nat} (h : i < (all n l).length) :
    (all n l)[i] = (l.drop (i * n)).take n ∧ i * n < l.length := by
  by_cases hi : i < (whole n l).length
  · obtain ⟨heq, hle⟩ := getElem_whole hi
    rw [Nat.succ_mul] at hle
    refine ⟨?_, by omega⟩
    rw [← heq]
    exact List.getElem_append_left hi
  · -- The group comes behind the full ones, so it is what these leave over.
    have hlast : rest n l ≠ [] := by
      intro h0
      rw [all_of_rest_eq_nil h0] at h
      exact hi h
    have hall := all_of_rest_ne_nil hlast
    have hnumber : i = l.length / n := by
      rw [hall, List.length_append, List.length_singleton] at h
      rw [length_whole] at h hi
      omega
    subst hnumber
    have hshort : (rest n l).length < n := by
      rw [length_rest]
      exact Nat.mod_lt _ hn
    have hpos : 0 < (rest n l).length := List.length_pos_iff.2 hlast
    have hlt : l.length / n * n < l.length := by
      rw [rest, List.length_drop] at hpos
      omega
    refine ⟨?_, hlt⟩
    simp only [hall]
    rw [List.getElem_append_right (by rw [length_whole]), ← rest,
      List.take_of_length_le hshort.le]
    simp

/-- Every group before what is left has its full length. -/
theorem length_of_mem_whole {n : Nat} {l group : List α} (h : group ∈ whole n l) :
    group.length = n := by
  obtain ⟨i, hi, rfl⟩ := List.getElem_of_mem h
  obtain ⟨heq, hle⟩ := getElem_whole hi
  rw [Nat.succ_mul] at hle
  rw [heq, List.length_take, List.length_drop]
  omega

/-- The first groups of a list are its first entries. -/
theorem flatten_eq_take {n : Nat} {l : List α} {groups : List (List α)}
    (h : groups <+: whole n l) : groups.flatten = l.take (groups.length * n) := by
  have hflatten : ∀ k, ((List.range k).map fun i => (l.drop (i * n)).take n).flatten =
      l.take (k * n) := by
    intro k
    induction k with
    | zero => simp
    | succ k ih =>
      rw [List.range_succ, List.map_append, List.flatten_append, ih, List.map_singleton,
        List.flatten_singleton, Nat.succ_mul, List.take_add]
  have hfew : groups.length ≤ l.length / n := length_whole n l ▸ h.length_le
  have htake : groups = (List.range groups.length).map fun i => (l.drop (i * n)).take n := by
    conv_lhs => rw [List.prefix_iff_eq_take.1 h, whole]
    rw [← List.map_take, List.take_range, Nat.min_eq_left hfew]
  conv_lhs => rw [htake]
  exact hflatten _

/-- Groups and rest make up the list. -/
theorem flatten_whole_append_rest (n : Nat) (l : List α) :
    (whole n l).flatten ++ rest n l = l := by
  rw [flatten_eq_take List.prefix_rfl, length_whole, rest, List.take_append_drop]

/-- A group at the start is cut off first. -/
theorem whole_group_append {n : Nat} {g : List α} (hn : 0 < n) (hg : g.length = n)
    (l : List α) : whole n (g ++ l) = g :: whole n l := by
  have hdiv : (g ++ l).length / n = l.length / n + 1 := by
    rw [List.length_append, hg, Nat.add_comm, Nat.add_div_right _ hn]
  rw [whole, hdiv, List.range_succ_eq_map, List.map_cons, List.map_map, whole]
  congr 1
  · rw [Nat.zero_mul, List.drop_zero, ← hg, List.take_left]
  · refine List.map_congr_left fun i _ => ?_
    show ((g ++ l).drop ((i + 1) * n)).take n = (l.drop (i * n)).take n
    rw [Nat.succ_mul, Nat.add_comm, ← List.drop_drop, ← hg, List.drop_left]

/-- What is left does not depend on a group at the start. -/
theorem rest_group_append {n : Nat} {g : List α} (hn : 0 < n) (hg : g.length = n)
    (l : List α) : rest n (g ++ l) = rest n l := by
  have hdiv : (g ++ l).length / n = l.length / n + 1 := by
    rw [List.length_append, hg, Nat.add_comm, Nat.add_div_right _ hn]
  rw [rest, hdiv, Nat.succ_mul, Nat.add_comm, ← List.drop_drop, ← hg, List.drop_left, hg, rest]

/-- Cutting may stop after any entry: the groups of the start come first, and what was
left of it is cut together with the entries that follow. -/
theorem whole_append_and_rest_append {n : Nat} (hn : 0 < n) (a b : List α) :
    whole n (a ++ b) = whole n a ++ whole n (rest n a ++ b) ∧
      rest n (a ++ b) = rest n (rest n a ++ b) := by
  -- By induction on the length of what comes first: a whole group of it is cut off at once.
  induction h : a.length using Nat.strong_induction_on generalizing a with
  | _ k ih =>
    by_cases hlt : a.length < n
    · rw [whole_of_lt hlt, rest_of_lt hlt]
      exact ⟨rfl, rfl⟩
    · have hg : (a.take n).length = n := by
        rw [List.length_take]
        omega
      obtain ⟨hw, hr⟩ := ih (a.drop n).length (by rw [List.length_drop]; omega) (a.drop n) rfl
      have ha : a = a.take n ++ a.drop n := (List.take_append_drop n a).symm
      have hab : a ++ b = a.take n ++ (a.drop n ++ b) := by rw [← List.append_assoc, ← ha]
      have hwa : whole n a = a.take n :: whole n (a.drop n) := by
        conv_lhs => rw [ha]
        exact whole_group_append hn hg _
      have hra : rest n a = rest n (a.drop n) := by
        conv_lhs => rw [ha]
        exact rest_group_append hn hg _
      rw [hab, whole_group_append hn hg, rest_group_append hn hg, hwa, hra, hw, hr]
      exact ⟨rfl, rfl⟩

theorem whole_append {n : Nat} (hn : 0 < n) (a b : List α) :
    whole n (a ++ b) = whole n a ++ whole n (rest n a ++ b) :=
  (whole_append_and_rest_append hn a b).1

theorem rest_append {n : Nat} (hn : 0 < n) (a b : List α) :
    rest n (a ++ b) = rest n (rest n a ++ b) :=
  (whole_append_and_rest_append hn a b).2

/-- Cutting adds no entries. -/
theorem mem_of_mem_all {n : Nat} {l group : List α} {a : α}
    (hgroup : group ∈ all n l) (ha : a ∈ group) : a ∈ l := by
  rw [all] at hgroup
  rcases List.mem_append.1 hgroup with hgroup | hgroup
  · obtain ⟨i, -, rfl⟩ := List.mem_map.1 hgroup
    exact List.mem_of_mem_drop (List.mem_of_mem_take ha)
  · split_ifs at hgroup
    · cases hgroup
    · obtain rfl := List.mem_singleton.1 hgroup
      exact List.mem_of_mem_drop ha

/-- The whole groups of a prefix of equal pieces are pieces. -/
theorem mem_whole_flatMap {β : Type} {f : α → List β} {n : Nat} (hn : 0 < n)
    (hf : ∀ a, (f a).length = n) {as : List α} {l : List β} (h : l <+: as.flatMap f) :
    ∀ group ∈ whole n l, ∃ a ∈ as, group = f a := by
  induction as generalizing l with
  | nil =>
    obtain rfl := List.prefix_nil.1 h
    rw [whole_of_lt hn]
    intro group hgroup
    cases hgroup
  | cons a as ih =>
    by_cases hlt : l.length < n
    · rw [whole_of_lt hlt]
      intro group hgroup
      cases hgroup
    · -- The first group is the first piece, and the others come behind it.
      have hle : n ≤ l.length := Nat.not_lt.1 hlt
      rw [List.flatMap_cons] at h
      have htake : l.take n = f a := by
        have hfront := h.take n
        rw [List.take_left' (hf a)] at hfront
        exact hfront.eq_of_length (by rw [List.length_take, hf a, Nat.min_eq_left hle])
      have hdrop : l.drop n <+: as.flatMap f := by
        have hrest := h.drop n
        rw [List.drop_left' (hf a)] at hrest
        exact hrest
      have hsplit : l = f a ++ l.drop n := by rw [← htake, List.take_append_drop]
      rw [hsplit, whole_group_append hn (hf a)]
      intro group hgroup
      rcases List.mem_cons.1 hgroup with rfl | hgroup
      · exact ⟨a, List.mem_cons_self, rfl⟩
      · obtain ⟨b, hb, heq⟩ := ih hdrop group hgroup
        exact ⟨b, List.mem_cons_of_mem _ hb, heq⟩

end Cut

/-! ## Frames of a buffer -/

/-- One sample per channel. -/
abbrev Frame := List Sample

namespace SampleBuffer

/-- Whether a buffer holds frames of so many channels: a plane for each channel that is
long enough, or a whole number of frames back to back. -/
def Fits (channels : Nat) : SampleBuffer → Prop
  | .planar planes frames => planes.length = channels ∧ ∀ plane ∈ planes, frames ≤ plane.length
  | .interleaved samples => 0 < channels ∧ channels ∣ samples.length

instance (channels : Nat) (b : SampleBuffer) : Decidable (b.Fits channels) := by
  cases b <;> unfold Fits <;> infer_instance

/-- The first `count` frames of planes: frame `i` takes sample `i` of each plane. -/
def columns (planes : List (List Sample)) (count : Nat) : List Frame :=
  (List.range count).map fun i => planes.filterMap (·[i]?)

/-- The frames of a buffer that fits. -/
def frames (channels : Nat) : SampleBuffer → List Frame
  | .planar planes count => columns planes count
  | .interleaved samples => Cut.whole channels samples

/-- The frames of those buffers that fit, one buffer after the other. -/
def stream (channels : Nat) (buffers : List SampleBuffer) : List Frame :=
  (buffers.filter (·.Fits channels)).flatMap (·.frames channels)

/-- One more frame takes one more sample of each plane. -/
theorem columns_succ (planes : List (List Sample)) (count : Nat) :
    columns planes (count + 1) = columns planes count ++ [planes.filterMap (·[count]?)] := by
  simp [columns, List.range_succ]

/-- Frames may be taken from planes in two goes. -/
theorem columns_add (planes : List (List Sample)) (first second : Nat) :
    columns planes (first + second) =
      columns planes first ++ columns (planes.map (·.drop first)) second := by
  simp [columns, List.range_add, List.filterMap_map, Function.comp_def]

@[simp] theorem length_columns (planes : List (List Sample)) (count : Nat) :
    (columns planes count).length = count := by simp [columns]

/-- Planes that are long enough give a sample each. -/
theorem filterMap_getElem?_eq_map {planes : List (List Sample)} {i : Nat}
    (h : ∀ plane ∈ planes, i < plane.length) :
    planes.filterMap (·[i]?) = planes.map fun plane => plane.getD i (Binary.zero false) := by
  induction planes with
  | nil => rfl
  | cons plane planes ih =>
    have hi : i < plane.length := h plane (by simp)
    have hrest := ih fun p hp => h p (by simp [hp])
    simp [hi, hrest]

/-- Every frame of a buffer that fits has a sample for each channel. -/
theorem length_of_mem_frames {channels : Nat} {b : SampleBuffer} (h : b.Fits channels)
    {frame : Frame} (hf : frame ∈ b.frames channels) : frame.length = channels := by
  cases b with
  | planar planes count =>
    obtain ⟨i, hi, rfl⟩ := List.mem_map.1 hf
    have hlong : ∀ plane ∈ planes, i < plane.length := fun plane hp =>
      Nat.lt_of_lt_of_le (List.mem_range.1 hi) (h.2 plane hp)
    rw [filterMap_getElem?_eq_map hlong, List.length_map, h.1]
  | interleaved samples => exact Cut.length_of_mem_whole hf

end SampleBuffer

/-! ## Bounds over frames -/

namespace ChannelExtrema

/-- The bounds of each channel over frames: all its samples, in order, from where the
anchor starts. -/
def ofFrames (anchor : Anchor) (channels : Nat) (frames : List Frame) : ChannelExtrema where
  anchor
  extrema := (List.range channels).map fun c =>
    anchor.initial.addAll (frames.filterMap (·[c]?))

@[simp] theorem channels_ofFrames (anchor : Anchor) (channels : Nat) (frames : List Frame) :
    (ofFrames anchor channels frames).channels = channels := by
  simp [ofFrames, ChannelExtrema.channels]

/-- No frames leave every channel where the anchor starts. -/
theorem ofFrames_nil (anchor : Anchor) (channels : Nat) :
    ofFrames anchor channels [] = fresh channels anchor := by
  simp [ofFrames, fresh, Extrema.addAll, List.map_const']

/-- Starting over forgets the frames. -/
theorem reset_ofFrames (anchor : Anchor) (channels : Nat) (frames : List Frame) :
    (ofFrames anchor channels frames).reset = ofFrames anchor channels [] := by
  rw [ofFrames_nil, reset, channels_ofFrames]
  rfl

/-- Adding a frame to all channels at once adds its samples to each channel. -/
theorem addFrame_ofFrames {anchor : Anchor} {channels : Nat} {frame : Frame}
    (h : frame.length = channels) (frames : List Frame) :
    (ofFrames anchor channels frames).addFrame frame = ofFrames anchor channels (frames ++ [frame]) := by
  simp only [ofFrames, addFrame, ChannelExtrema.mk.injEq, true_and]
  -- The frame has a sample for every channel, so no channel is left as it was.
  rw [List.drop_of_length_le (by simp [h]), List.append_nil]
  refine List.ext_getElem (by simp [h]) fun c hc _ => ?_
  have hframe : c < frame.length := by simp_all
  simp [Extrema.addAll, hframe]

end ChannelExtrema

end Peakfile
