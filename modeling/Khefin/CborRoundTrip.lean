import Khefin.CborItems
import Mathlib.Tactic.Ring

/-! # Decoding undoes encoding, and whatever decodes can be encoded

Decoding an encoded item gives the item back and stops at its end. In the other
direction a decoded item need not have been written the way the encoder writes
it, but all its arguments fit their heads and its strings came from the input. -/

namespace Cbor

/-! ## Digits -/

@[simp] theorem length_beBytes (k n : ℕ) : (beBytes k n).length = k := by
  induction k with
  | zero => rfl
  | succ k ih => simp [beBytes, ih]

private theorem foldl_beBytes (k n acc : ℕ) :
    (beBytes k n).foldl (fun acc b => acc * 256 + b.toNat) acc = acc * 256 ^ k + n % 256 ^ k := by
  induction k generalizing acc with
  | zero => simp [beBytes, Nat.mod_one]
  | succ k ih =>
    have hb : (UInt8.ofNat (n / 256 ^ k)).toNat = n / 256 ^ k % 256 := by simp
    simp only [beBytes, List.foldl_cons, ih, hb]
    rw [Nat.pow_succ, Nat.mod_mul]
    ring

theorem beValue_beBytes {k n : ℕ} (h : n < 256 ^ k) : beValue (beBytes k n) = n := by
  simp [beValue, foldl_beBytes, Nat.mod_eq_of_lt h]

private theorem foldl_lt (s : Bytes) (acc : ℕ) :
    s.foldl (fun acc b => acc * 256 + b.toNat) acc < (acc + 1) * 256 ^ s.length := by
  induction s generalizing acc with
  | nil => simp
  | cons b s ih =>
    have hb := b.toNat_lt
    calc _ < (acc * 256 + b.toNat + 1) * 256 ^ s.length := ih _
      _ ≤ ((acc + 1) * 256) * 256 ^ s.length := Nat.mul_le_mul_right _ (by omega)
      _ = (acc + 1) * 256 ^ (b :: s).length := by rw [List.length_cons, Nat.pow_succ]; ring

theorem beValue_lt (s : Bytes) : beValue s < 256 ^ s.length := by simpa [beValue] using foldl_lt s 0

/-! ## Heads -/

theorem toNat_initialByte {major info : ℕ} (hm : major < 8) (hi : info < 32) :
    (initialByte major info).toNat = 32 * major + info := by
  simp only [initialByte, UInt8.toNat_ofNat']
  omega

theorem takeBytes_append {n : ℕ} {d : Bytes} (h : d.length = n) (s : Bytes) :
    takeBytes n (d ++ s) = some (d, s) := by
  subst h
  simp [takeBytes]

theorem takeBytes_spec {n : ℕ} {s d r : Bytes} (h : takeBytes n s = some (d, r)) :
    d.length = n ∧ s = d ++ r := by
  unfold takeBytes at h
  split at h
  · rename_i hn
    simp only [Option.some.injEq, Prod.mk.injEq] at h
    obtain ⟨rfl, rfl⟩ := h
    exact ⟨by simp [hn], (List.take_append_drop n s).symm⟩
  · cases h

@[simp] theorem widthOfInfo_info (w : Width) : widthOfInfo w.info = some w := by cases w <;> rfl

theorem info_lt (w : Width) : 24 ≤ w.info ∧ w.info < 28 := by cases w <;> decide

/-- The argument behind a wide head is read back with its width. -/
theorem readArgument_beBytes {w : Width} {n : ℕ} (h : n < 256 ^ w.size) (s : Bytes) :
    readArgument w.info (beBytes w.size n ++ s) = some (w, n, s) := by
  have hw : ¬w.info < 24 := by have := info_lt w; omega
  simp [readArgument, hw, takeBytes_append (length_beBytes w.size n), beValue_beBytes h]

theorem readArgument_spec {info : ℕ} {s r : Bytes} {w : Width} {n : ℕ}
    (h : readArgument info s = some (w, n, r)) : n < 256 ^ w.size ∧ r.length ≤ s.length := by
  unfold readArgument at h
  split at h
  · simp only [Option.some.injEq, Prod.mk.injEq] at h
    obtain ⟨rfl, rfl, rfl⟩ := h
    exact ⟨by simp only [Width.size]; omega, Nat.le_refl _⟩
  · simp only [Option.bind_eq_some_iff, Option.map_eq_some_iff, Prod.mk.injEq, Prod.exists] at h
    obtain ⟨_, -, d, _, ht, rfl, rfl, rfl⟩ := h
    obtain ⟨hd, rfl⟩ := takeBytes_spec ht
    exact ⟨hd ▸ beValue_lt d, by simp⟩

/-- A head is an initial byte below the break code followed by its argument. -/
theorem encodeWide_spec (major : ℕ) (w : Width) (n : ℕ) :
    ∃ info t, info < 28 ∧ encodeWide major w n = initialByte major info :: t ∧
      (n < 256 ^ w.size → ∀ s, readArgument info (t ++ s) = some (w, n, s)) := by
  by_cases hs : w = .w8 ∧ n < 24
  · obtain ⟨rfl, hn⟩ := hs
    exact ⟨n, [], by omega, by simp [encodeWide, hn], fun _ s => by simp [readArgument, hn]⟩
  · exact ⟨w.info, beBytes w.size n, (info_lt w).2, by simp [encodeWide, hs],
      fun h s => readArgument_beBytes h s⟩

theorem lt_minimalWidth {n : ℕ} (h : n < 2 ^ 64) : n < 256 ^ (minimalWidth n).size := by
  unfold minimalWidth
  split_ifs <;> simp only [Width.size] <;> omega

/-! ## Strings -/

theorem readString_encodeString {major : ℕ} (hm : major < 8) {d : Bytes} (hd : d.length < 2 ^ 64)
    (s : Bytes) : readString major (encodeString major d ++ s) = some (d, s) := by
  obtain ⟨info, t, hi, he, hr⟩ := encodeWide_spec major (minimalWidth d.length) d.length
  have hb := toNat_initialByte hm (show info < 32 by omega)
  have hmaj : (32 * major + info) / 32 = major := by omega
  have hinf : (32 * major + info) % 32 = info := by omega
  simp [encodeString, encodeHead, he, readString, hb, hmaj, hinf, hr (lt_minimalWidth hd),
    takeBytes_append]

theorem readString_spec {major : ℕ} {s d r : Bytes} (h : readString major s = some (d, r)) :
    d.length < 2 ^ 64 ∧ d.length + r.length < s.length := by
  cases s with
  | nil => simp [readString] at h
  | cons b s =>
    simp only [readString] at h
    split at h
    · simp only [Option.bind_eq_some_iff, Prod.exists] at h
      obtain ⟨w, n, s', ha, ht⟩ := h
      obtain ⟨hn, hs⟩ := readArgument_spec ha
      obtain ⟨hd, rfl⟩ := takeBytes_spec ht
      have hw : 256 ^ w.size ≤ 2 ^ 64 := by cases w <;> decide
      simp only [List.length_append, List.length_cons] at hs ⊢
      omega
    · cases h

/-! ## Repetition -/

section Repetition

variable {α : Type} {read : Bytes → Option (α × Bytes)} {enc : α → Bytes}

theorem readTimes_flatMap (xs : List α) (h : ∀ a ∈ xs, ∀ s, read (enc a ++ s) = some (a, s))
    (s : Bytes) : readTimes read xs.length (xs.flatMap enc ++ s) = some (xs, s) := by
  induction xs with
  | nil => rfl
  | cons a xs ih =>
    have ht := ih fun b hb => h b (List.mem_cons_of_mem _ hb)
    simp [readTimes, h a List.mem_cons_self, ht]

theorem readUntilBreak_flatMap (xs : List α) (h : ∀ a ∈ xs, ∀ s, read (enc a ++ s) = some (a, s))
    (hb : ∀ a ∈ xs, ∃ b t, enc a = b :: t ∧ b ≠ breakByte) {n : ℕ} (hn : xs.length < n)
    (s : Bytes) : readUntilBreak read n (xs.flatMap enc ++ breakByte :: s) = some (xs, s) := by
  induction xs generalizing n with
  | nil =>
    obtain ⟨n, rfl⟩ := Nat.exists_eq_succ_of_ne_zero (show n ≠ 0 by omega)
    simp [readUntilBreak]
  | cons a xs ih =>
    obtain ⟨n, rfl⟩ := Nat.exists_eq_succ_of_ne_zero (show n ≠ 0 by omega)
    obtain ⟨b, t, he, hne⟩ := hb a List.mem_cons_self
    have ha := h a List.mem_cons_self (xs.flatMap enc ++ breakByte :: s)
    have ht := ih (fun c hc => h c (List.mem_cons_of_mem _ hc))
      (fun c hc => hb c (List.mem_cons_of_mem _ hc)) (n := n) (by simpa using hn)
    rw [he] at ha
    simp only [List.cons_append] at ha
    simp [readUntilBreak, he, hne, ha, ht]

/-- A property of every element read, and the bytes they took. -/
theorem readTimes_spec {P : α → Prop} {size : α → ℕ}
    (h : ∀ s a r, read s = some (a, r) → P a ∧ size a + r.length ≤ s.length) :
    ∀ n s xs r, readTimes read n s = some (xs, r) →
      xs.length = n ∧ (∀ a ∈ xs, P a) ∧ (xs.map size).sum + r.length ≤ s.length := by
  intro n
  induction n with
  | zero =>
    intro s xs r hr
    simp only [readTimes, Option.some.injEq, Prod.mk.injEq] at hr
    obtain ⟨rfl, rfl⟩ := hr
    simp
  | succ n ih =>
    intro s xs r hr
    simp only [readTimes, Option.bind_eq_some_iff, Option.map_eq_some_iff, Prod.exists,
      Prod.mk.injEq] at hr
    obtain ⟨a, s', ha, xs', r', ht, rfl, rfl⟩ := hr
    obtain ⟨hl, hP, hsum⟩ := ih _ _ _ ht
    obtain ⟨hPa, hsz⟩ := h _ _ _ ha
    refine ⟨by simp [hl], ?_, by simp only [List.map_cons, List.sum_cons]; omega⟩
    intro c hc
    rcases List.mem_cons.mp hc with rfl | hc
    · exact hPa
    · exact hP c hc

theorem readUntilBreak_spec {P : α → Prop} {size : α → ℕ}
    (h : ∀ s a r, read s = some (a, r) → P a ∧ size a + r.length ≤ s.length) :
    ∀ n s xs r, readUntilBreak read n s = some (xs, r) →
      (∀ a ∈ xs, P a) ∧ (xs.map size).sum + r.length ≤ s.length := by
  intro n
  induction n with
  | zero => intro s xs r hr; simp [readUntilBreak] at hr
  | succ n ih =>
    intro s xs r hr
    cases s with
    | nil => simp [readUntilBreak] at hr
    | cons b s =>
      simp only [readUntilBreak] at hr
      split at hr
      · simp only [Option.some.injEq, Prod.mk.injEq] at hr
        obtain ⟨rfl, rfl⟩ := hr
        simp
      · simp only [Option.bind_eq_some_iff, Option.map_eq_some_iff, Prod.exists,
          Prod.mk.injEq] at hr
        obtain ⟨a, s', ha, xs', r', ht, rfl, rfl⟩ := hr
        obtain ⟨hP, hsum⟩ := ih _ _ _ ht
        obtain ⟨hPa, hsz⟩ := h _ _ _ ha
        refine ⟨?_, by simp only [List.map_cons, List.sum_cons]; omega⟩
        intro c hc
        rcases List.mem_cons.mp hc with rfl | hc
        · exact hPa
        · exact hP c hc

end Repetition

/-! ## Lists of items -/

theorem encodeAll_eq_flatMap (is : List Item) : encodeAll is = is.flatMap encode := by
  induction is with
  | nil => rfl
  | cons i is ih => simp [encodeAll, ih]

theorem allEncodable_iff {is : List Item} : AllEncodable is ↔ ∀ i ∈ is, i.Encodable := by
  induction is with
  | nil => simp [AllEncodable]
  | cons i is ih => simp [AllEncodable, ih]

theorem depthAll_le {is : List Item} {n : ℕ} : depthAll is ≤ n ↔ ∀ i ∈ is, i.depth ≤ n := by
  induction is with
  | nil => simp [depthAll]
  | cons i is ih => simp [depthAll, ih]

theorem payloadAll_eq (is : List Item) : payloadAll is = (is.map Item.payload).sum := by
  induction is with
  | nil => rfl
  | cons i is ih => simp [payloadAll, ih]

theorem payload_le_payloadAll {i : Item} {is : List Item} (h : i ∈ is) :
    i.payload ≤ payloadAll is := by
  induction is with
  | nil => simp at h
  | cons j is ih =>
    simp only [payloadAll]
    rcases List.mem_cons.mp h with rfl | h
    · omega
    · exact (ih h).trans (Nat.le_add_left _ _)

/-! ## Round trip -/

private theorem initialByte_ne_break {major info : ℕ} (hm : major < 8) (hi : info < 32)
    (h : major < 7 ∨ info < 31) : initialByte major info ≠ breakByte := by
  intro he
  have := congrArg UInt8.toNat he
  rw [toNat_initialByte hm hi, show breakByte.toNat = 255 from rfl] at this
  omega

private theorem encodeWide_head (major : ℕ) (hm : major < 8) (w : Width) (n : ℕ) (s : Bytes) :
    ∃ b t, encodeWide major w n ++ s = b :: t ∧ b ≠ breakByte := by
  obtain ⟨info, t, hi, he, -⟩ := encodeWide_spec major w n
  exact ⟨_, t ++ s, by rw [he]; rfl, initialByte_ne_break hm (by omega) (by omega)⟩

/-- No item starts with the break code, so a break ends a sequence of items. -/
theorem encode_head (i : Item) : ∃ b t, encode i = b :: t ∧ b ≠ breakByte := by
  have hi (major : ℕ) (hm : major < 7) : initialByte major 31 ≠ breakByte :=
    initialByte_ne_break (by omega) (by decide) (Or.inl hm)
  cases i with
  | uint w n => simpa [encode] using encodeWide_head 0 (by decide) w n []
  | negint w n => simpa [encode] using encodeWide_head 1 (by decide) w n []
  | bytes d => exact encodeWide_head 2 (by decide) _ _ _
  | text d => exact encodeWide_head 3 (by decide) _ _ _
  | byteChunks cs => exact ⟨_, _, rfl, hi 2 (by decide)⟩
  | textChunks cs => exact ⟨_, _, rfl, hi 3 (by decide)⟩
  | array definite is =>
    cases definite with
    | true => rw [encode]; exact encodeWide_head 4 (by decide) _ _ _
    | false => rw [encode]; exact ⟨_, _, rfl, hi 4 (by decide)⟩
  | map definite is =>
    cases definite with
    | true => rw [encode]; exact encodeWide_head 5 (by decide) _ _ _
    | false => rw [encode]; exact ⟨_, _, rfl, hi 5 (by decide)⟩
  | tag n i => rw [encode]; exact encodeWide_head 6 (by decide) _ _ _
  | simple v =>
    rw [encode]
    split
    · exact ⟨_, _, rfl, initialByte_ne_break (by decide) (by omega) (Or.inr (by omega))⟩
    · exact ⟨_, _, rfl, initialByte_ne_break (by decide) (by decide) (by decide)⟩
  | float w bits =>
    have := info_lt w
    rw [encode]
    exact ⟨_, _, rfl, initialByte_ne_break (by decide) (by omega) (Or.inr (by omega))⟩

private theorem length_le_flatMap {α : Type} {enc : α → Bytes} (xs : List α)
    (h : ∀ a, ∃ b t, enc a = b :: t ∧ b ≠ breakByte) : xs.length ≤ (xs.flatMap enc).length := by
  induction xs with
  | nil => simp
  | cons a xs ih =>
    obtain ⟨b, t, he, -⟩ := h a
    simp only [List.flatMap_cons, List.length_append, List.length_cons, he]
    omega

/-- The head of an item of major type `major` whose argument is `n`. -/
private theorem decodeItem_head {major : ℕ} (hm : major < 8) {n : ℕ} (w : Width) (s : Bytes) :
    ∃ b info t, encodeWide major w n ++ s = b :: (t ++ s) ∧ b.toNat / 32 = major ∧
      b.toNat % 32 = info ∧ info < 28 ∧
      (n < 256 ^ w.size → readArgument info (t ++ s) = some (w, n, s)) := by
  obtain ⟨info, t, hi, he, hr⟩ := encodeWide_spec major w n
  have hb := toNat_initialByte hm (show info < 32 by omega)
  exact ⟨_, info, t, by rw [he]; rfl, by omega, by omega, hi, fun h => hr h s⟩

private theorem encodeString_head (major : ℕ) (hm : major < 8) (d : Bytes) :
    ∃ b t, encodeString major d = b :: t ∧ b ≠ breakByte := encodeWide_head major hm _ _ _

/-- A sequence closed by a break is read back by any reader of its elements. -/
private theorem readUntilBreak_encoded {α : Type} {read : Bytes → Option (α × Bytes)}
    (enc : α → Bytes) (xs : List α) (h : ∀ a ∈ xs, ∀ s, read (enc a ++ s) = some (a, s))
    (hb : ∀ a, ∃ b t, enc a = b :: t ∧ b ≠ breakByte) (s : Bytes) :
    readUntilBreak read (xs.flatMap enc ++ breakByte :: s).length
      (xs.flatMap enc ++ breakByte :: s) = some (xs, s) := by
  have hl := length_le_flatMap xs hb
  exact readUntilBreak_flatMap xs h (fun a _ => hb a)
    (by simp only [List.length_append, List.length_cons]; omega) s

/-- A definite string is told from a chunked one by its first byte. -/
private theorem readString_encoded {major : ℕ} (hm : major < 8) {d : Bytes}
    (hd : d.length < 2 ^ 64) (s : Bytes) :
    ∃ b t, encodeString major d ++ s = b :: t ∧ b.toNat / 32 = major ∧ b.toNat % 32 ≠ 31 ∧
      readString major (b :: t) = some (d, s) := by
  obtain ⟨b, info, t, he, hmaj, hinf, hi, -⟩ :=
    decodeItem_head hm (n := d.length) (minimalWidth d.length) (d ++ s)
  have hb : encodeString major d ++ s = b :: (t ++ (d ++ s)) := by
    rw [encodeString, encodeHead, List.append_assoc, he]
  have hread := readString_encodeString hm hd s
  rw [hb] at hread
  exact ⟨b, _, hb, hmaj, by omega, hread⟩

private theorem readUntilBreak_chunks {major : ℕ} (hm : major < 8) {cs : List Bytes}
    (h : ∀ d ∈ cs, d.length < 2 ^ 64) (s : Bytes) :
    readUntilBreak (readString major) (cs.flatMap (encodeString major) ++ breakByte :: s).length
      (cs.flatMap (encodeString major) ++ breakByte :: s) = some (cs, s) :=
  readUntilBreak_encoded (encodeString major) cs
    (fun d hd => readString_encodeString hm (h d hd)) (encodeString_head major hm) s

/-- Decoding stops at the end of an encoded item, whatever follows it. The proof
follows the nesting of the item; the strings and heads are leaves. -/
theorem decodeItem_encode : ∀ (i : Item), i.Encodable → ∀ depth s, i.depth ≤ depth →
    decodeItem depth (encode i ++ s) = some (i, s)
  | i, h, 0, s, hd => by cases i <;> simp [Item.depth] at hd
  | .uint w n, h, depth + 1, s, _ => by
    obtain ⟨b, info, t, he, hmaj, hinf, -, hr⟩ := decodeItem_head (by decide : 0 < 8) (n := n) w s
    rw [Item.Encodable] at h
    simp [encode, he, decodeItem, hmaj, hinf, hr h]
  | .negint w n, h, depth + 1, s, _ => by
    obtain ⟨b, info, t, he, hmaj, hinf, -, hr⟩ := decodeItem_head (by decide : 1 < 8) (n := n) w s
    rw [Item.Encodable] at h
    simp [encode, he, decodeItem, hmaj, hinf, hr h]
  | .bytes d, h, depth + 1, s, _ => by
    rw [Item.Encodable] at h
    obtain ⟨b, t, he, hmaj, hinf, hread⟩ := readString_encoded (by decide : 2 < 8) h s
    simp [encode, he, decodeItem, hmaj, hinf, hread]
  | .text d, h, depth + 1, s, _ => by
    rw [Item.Encodable] at h
    obtain ⟨b, t, he, hmaj, hinf, hread⟩ := readString_encoded (by decide : 3 < 8) h s
    simp [encode, he, decodeItem, hmaj, hinf, hread]
  | .byteChunks cs, h, depth + 1, s, _ => by
    rw [Item.Encodable] at h
    have hb := toNat_initialByte (by decide : 2 < 8) (by decide : 31 < 32)
    have hread := readUntilBreak_chunks (by decide : 2 < 8) h s
    simp only [List.length_append, List.length_cons] at hread
    simp [-List.length_flatMap, encode, decodeItem, hb, hread]
  | .textChunks cs, h, depth + 1, s, _ => by
    rw [Item.Encodable] at h
    have hb := toNat_initialByte (by decide : 3 < 8) (by decide : 31 < 32)
    have hread := readUntilBreak_chunks (by decide : 3 < 8) h s
    simp only [List.length_append, List.length_cons] at hread
    simp [-List.length_flatMap, encode, decodeItem, hb, hread]
  | .array definite is, h, depth + 1, s, hd => by
    rw [Item.Encodable, allEncodable_iff] at h
    have hdepth := depthAll_le.mp (show depthAll is ≤ depth by simpa [Item.depth] using hd)
    have hitems : ∀ i ∈ is, ∀ s, decodeItem depth (encode i ++ s) = some (i, s) :=
      fun i hi s => decodeItem_encode i (h.2 i hi) depth s (hdepth i hi)
    cases definite with
    | true =>
      obtain ⟨b, info, t, he, hmaj, hinf, hi, hr⟩ :=
        decodeItem_head (by decide : 4 < 8) (n := is.length) (minimalWidth is.length)
          (is.flatMap encode ++ s)
      have hne : info ≠ 31 := by omega
      simp [encode, encodeAll_eq_flatMap, encodeHead, he, decodeItem, hmaj, hinf, hne,
        hr (lt_minimalWidth (h.1 rfl)), readTimes_flatMap is hitems s]
    | false =>
      have hb := toNat_initialByte (by decide : 4 < 8) (by decide : 31 < 32)
      have hread := readUntilBreak_encoded encode is hitems encode_head s
      simp only [List.length_append, List.length_cons] at hread
      simp [-List.length_flatMap, encode, encodeAll_eq_flatMap, decodeItem, hb, hread]
  | .map definite es, h, depth + 1, s, hd => by
    rw [Item.Encodable, allEncodable_iff] at h
    have hdepth := depthAll_le.mp (show depthAll es ≤ depth by simpa [Item.depth] using hd)
    have hitems : ∀ i ∈ es, ∀ s, decodeItem depth (encode i ++ s) = some (i, s) :=
      fun i hi s => decodeItem_encode i (h.2.2 i hi) depth s (hdepth i hi)
    cases definite with
    | true =>
      obtain ⟨b, info, t, he, hmaj, hinf, hi, hr⟩ :=
        decodeItem_head (by decide : 5 < 8) (n := es.length / 2) (minimalWidth (es.length / 2))
          (es.flatMap encode ++ s)
      have hne : info ≠ 31 := by omega
      have heven : 2 * (es.length / 2) = es.length := by have := h.2.1; omega
      simp [encode, encodeAll_eq_flatMap, encodeHead, he, decodeItem, hmaj, hinf, hne,
        hr (lt_minimalWidth (h.1 rfl)), heven, readTimes_flatMap es hitems s]
    | false =>
      have hb := toNat_initialByte (by decide : 5 < 8) (by decide : 31 < 32)
      have hread := readUntilBreak_encoded encode es hitems encode_head s
      simp only [List.length_append, List.length_cons] at hread
      simp [-List.length_flatMap, encode, encodeAll_eq_flatMap, decodeItem, hb, hread, h.2.1]
  | .tag n content, h, depth + 1, s, hd => by
    obtain ⟨b, info, t, he, hmaj, hinf, -, hr⟩ :=
      decodeItem_head (by decide : 6 < 8) (n := n) (minimalWidth n) (encode content ++ s)
    rw [Item.Encodable] at h
    have hc := decodeItem_encode content h.2 depth s (by simpa [Item.depth] using hd)
    simp [encode, encodeHead, he, decodeItem, hmaj, hinf, hr (lt_minimalWidth h.1), hc]
  | .simple v, h, depth + 1, s, _ => by
    rw [Item.Encodable] at h
    by_cases hv : v < 24
    · have hb := toNat_initialByte (by decide : 7 < 8) (show v < 32 by omega)
      have hmaj : (32 * 7 + v) / 32 = 7 := by omega
      have hinf : (32 * 7 + v) % 32 = v := by omega
      simp [encode, hv, decodeItem, hb, hmaj, hinf, readSimple]
    · have hb := toNat_initialByte (by decide : 7 < 8) (by decide : 24 < 32)
      have hr := readArgument_beBytes (w := .w8) (n := v) (by simp [Width.size]; omega) s
      have hge : ¬v < 32 := by omega
      simp only [Width.info, Width.size, beBytes, Nat.pow_zero, Nat.div_one,
        List.cons_append, List.nil_append] at hr
      simp [encode, hv, decodeItem, hb, readSimple, hr, hge]
  | .float w bits, h, depth + 1, s, _ => by
    rw [Item.Encodable] at h
    have hw := info_lt w
    have hb := toNat_initialByte (by decide : 7 < 8) (show w.info < 32 by omega)
    have hmaj : (32 * 7 + w.info) / 32 = 7 := by omega
    have hinf : (32 * 7 + w.info) % 32 = w.info := by omega
    have hge : ¬w.info < 24 := by omega
    simp [encode, decodeItem, hb, hmaj, hinf, readSimple, hge, readArgument_beBytes h.2, h.1]

private theorem length_encode_le {is : List Item} {i : Item} (h : i ∈ is) :
    (encode i).length ≤ (encodeAll is).length := by
  obtain ⟨as, bs, rfl⟩ := List.append_of_mem h
  simp only [encodeAll_eq_flatMap, List.flatMap_append, List.flatMap_cons, List.length_append]
  omega

theorem depth_le_length_encode : ∀ i : Item, i.depth ≤ (encode i).length
  | .array definite is => by
    have h : depthAll is ≤ (encodeAll is).length :=
      depthAll_le.mpr fun i hi => (depth_le_length_encode i).trans (length_encode_le hi)
    obtain ⟨b, t, he, -⟩ := encodeWide_head 4 (by decide) (minimalWidth is.length) is.length []
    have hw : 1 ≤ (encodeHead 4 is.length).length := by
      simp only [List.append_nil] at he
      simp [encodeHead, he]
    cases definite <;> simp only [Item.depth, encode, List.length_append, List.length_cons] <;> omega
  | .map definite es => by
    have h : depthAll es ≤ (encodeAll es).length :=
      depthAll_le.mpr fun i hi => (depth_le_length_encode i).trans (length_encode_le hi)
    obtain ⟨b, t, he, -⟩ :=
      encodeWide_head 5 (by decide) (minimalWidth (es.length / 2)) (es.length / 2) []
    have hw : 1 ≤ (encodeHead 5 (es.length / 2)).length := by
      simp only [List.append_nil] at he
      simp [encodeHead, he]
    cases definite <;> simp only [Item.depth, encode, List.length_append, List.length_cons] <;> omega
  | .tag n content => by
    have h := depth_le_length_encode content
    obtain ⟨b, t, he, -⟩ := encodeWide_head 6 (by decide) (minimalWidth n) n []
    simp only [List.append_nil] at he
    simp only [Item.depth, encode, encodeHead, he, List.length_append, List.length_cons]
    omega
  | .uint _ _ | .negint _ _ | .bytes _ | .text _ | .byteChunks _ | .textChunks _ | .simple _
  | .float _ _ => by
    obtain ⟨b, t, he, -⟩ := encode_head _
    rw [he]
    simp [Item.depth]

/-- Decoding undoes encoding and leaves the bytes behind the item alone. -/
theorem decode_encode {i : Item} (h : i.Encodable) (s : Bytes) :
    decode (encode i ++ s) = some (i, s) := by
  apply decodeItem_encode i h
  have := depth_le_length_encode i
  simp only [List.length_append]
  omega

/-! ## Decoded items -/

private theorem size_le (w : Width) : 256 ^ w.size ≤ 2 ^ 64 := by cases w <;> decide

private theorem readSimple_spec {info : ℕ} {s r : Bytes} {i : Item}
    (h : readSimple info s = some (i, r)) : i.Encodable ∧ i.payload + r.length ≤ s.length := by
  unfold readSimple at h
  split at h
  · simp only [Option.some.injEq, Prod.mk.injEq] at h
    obtain ⟨rfl, rfl⟩ := h
    exact ⟨by rw [Item.Encodable]; omega, by simp [Item.payload]⟩
  · simp only [Option.bind_eq_some_iff, Prod.exists] at h
    obtain ⟨w, n, s', ha, h⟩ := h
    obtain ⟨hn, hs⟩ := readArgument_spec ha
    split at h
    · rename_i hw
      subst hw
      split at h
      · cases h
      · simp only [Option.some.injEq, Prod.mk.injEq] at h
        obtain ⟨rfl, rfl⟩ := h
        simp only [Width.size] at hn
        exact ⟨by rw [Item.Encodable]; omega, by simpa [Item.payload] using hs⟩
    · rename_i hw
      simp only [Option.some.injEq, Prod.mk.injEq] at h
      obtain ⟨rfl, rfl⟩ := h
      exact ⟨by rw [Item.Encodable]; exact ⟨hw, hn⟩, by simpa [Item.payload] using hs⟩

private theorem readChunk_spec {major : ℕ} (s d r : Bytes) (h : readString major s = some (d, r)) :
    d.length < 2 ^ 64 ∧ d.length + r.length ≤ s.length := by
  have := readString_spec h
  exact ⟨this.1, by omega⟩

private theorem readChunks_spec {major n : ℕ} {s r : Bytes} {cs : List Bytes}
    (h : readUntilBreak (readString major) n s = some (cs, r)) :
    (∀ d ∈ cs, d.length < 2 ^ 64) ∧ cs.flatten.length + r.length ≤ s.length := by
  rw [List.length_flatten]
  exact readUntilBreak_spec readChunk_spec _ _ _ _ h

/-- Whatever decodes has an encoding, and its strings were part of the input. -/
theorem decodeItem_spec : ∀ depth s i r, decodeItem depth s = some (i, r) →
    i.Encodable ∧ i.payload + r.length ≤ s.length := by
  intro depth
  induction depth with
  | zero => intro s i r h; simp [decodeItem] at h
  | succ depth ih =>
    intro s i r h
    cases s with
    | nil => simp [decodeItem] at h
    | cons b s =>
      simp only [decodeItem] at h
      split at h
      · simp only [Option.map_eq_some_iff, Prod.exists, Prod.mk.injEq] at h
        obtain ⟨w, n, r, ha, rfl, rfl⟩ := h
        obtain ⟨hn, hs⟩ := readArgument_spec ha
        exact ⟨by rwa [Item.Encodable], by simp only [Item.payload, List.length_cons]; omega⟩
      · simp only [Option.map_eq_some_iff, Prod.exists, Prod.mk.injEq] at h
        obtain ⟨w, n, r, ha, rfl, rfl⟩ := h
        obtain ⟨hn, hs⟩ := readArgument_spec ha
        exact ⟨by rwa [Item.Encodable], by simp only [Item.payload, List.length_cons]; omega⟩
      · split at h
        · simp only [Option.map_eq_some_iff, Prod.exists, Prod.mk.injEq] at h
          obtain ⟨cs, r, hr, rfl, rfl⟩ := h
          obtain ⟨hP, hs⟩ := readChunks_spec hr
          exact ⟨by rwa [Item.Encodable], by simp only [Item.payload, List.length_cons]; omega⟩
        · simp only [Option.map_eq_some_iff, Prod.exists, Prod.mk.injEq] at h
          obtain ⟨d, r, hr, rfl, rfl⟩ := h
          obtain ⟨hd, hs⟩ := readString_spec hr
          exact ⟨by rwa [Item.Encodable], by simp only [Item.payload]; omega⟩
      · split at h
        · simp only [Option.map_eq_some_iff, Prod.exists, Prod.mk.injEq] at h
          obtain ⟨cs, r, hr, rfl, rfl⟩ := h
          obtain ⟨hP, hs⟩ := readChunks_spec hr
          exact ⟨by rwa [Item.Encodable], by simp only [Item.payload, List.length_cons]; omega⟩
        · simp only [Option.map_eq_some_iff, Prod.exists, Prod.mk.injEq] at h
          obtain ⟨d, r, hr, rfl, rfl⟩ := h
          obtain ⟨hd, hs⟩ := readString_spec hr
          exact ⟨by rwa [Item.Encodable], by simp only [Item.payload]; omega⟩
      · split at h
        · simp only [Option.map_eq_some_iff, Prod.exists, Prod.mk.injEq] at h
          obtain ⟨is, r, hr, rfl, rfl⟩ := h
          obtain ⟨hP, hs⟩ := readUntilBreak_spec ih _ _ _ _ hr
          refine ⟨?_, by simp only [Item.payload, payloadAll_eq, List.length_cons]; omega⟩
          rw [Item.Encodable, allEncodable_iff]
          exact ⟨by simp, hP⟩
        · simp only [Option.bind_eq_some_iff, Option.map_eq_some_iff, Prod.exists,
            Prod.mk.injEq] at h
          obtain ⟨w, n, s', ha, is, r, hr, rfl, rfl⟩ := h
          obtain ⟨hn, hs'⟩ := readArgument_spec ha
          obtain ⟨hl, hP, hs⟩ := readTimes_spec ih _ _ _ _ hr
          refine ⟨?_, by simp only [Item.payload, payloadAll_eq, List.length_cons]; omega⟩
          rw [Item.Encodable, allEncodable_iff]
          exact ⟨fun _ => hl ▸ hn.trans_le (size_le w), hP⟩
      · split at h
        · simp only [Option.bind_eq_some_iff, Prod.exists] at h
          obtain ⟨es, r, hr, h⟩ := h
          obtain ⟨hP, hs⟩ := readUntilBreak_spec ih _ _ _ _ hr
          split at h
          · rename_i heven
            simp only [Option.some.injEq, Prod.mk.injEq] at h
            obtain ⟨rfl, rfl⟩ := h
            refine ⟨?_, by simp only [Item.payload, payloadAll_eq, List.length_cons]; omega⟩
            rw [Item.Encodable, allEncodable_iff]
            exact ⟨by simp, heven, hP⟩
          · cases h
        · simp only [Option.bind_eq_some_iff, Option.map_eq_some_iff, Prod.exists,
            Prod.mk.injEq] at h
          obtain ⟨w, n, s', ha, es, r, hr, rfl, rfl⟩ := h
          obtain ⟨hn, hs'⟩ := readArgument_spec ha
          obtain ⟨hl, hP, hs⟩ := readTimes_spec ih _ _ _ _ hr
          refine ⟨?_, by simp only [Item.payload, payloadAll_eq, List.length_cons]; omega⟩
          rw [Item.Encodable, allEncodable_iff]
          have := size_le w
          exact ⟨fun _ => by omega, by omega, hP⟩
      · simp only [Option.bind_eq_some_iff, Option.map_eq_some_iff, Prod.exists,
          Prod.mk.injEq] at h
        obtain ⟨w, n, s', ha, content, r, hr, rfl, rfl⟩ := h
        obtain ⟨hn, hs'⟩ := readArgument_spec ha
        obtain ⟨hE, hs⟩ := ih _ _ _ hr
        refine ⟨?_, by simp only [Item.payload, List.length_cons]; omega⟩
        rw [Item.Encodable]
        exact ⟨hn.trans_le (size_le w), hE⟩
      · obtain ⟨hE, hs⟩ := readSimple_spec h
        exact ⟨hE, by simp only [List.length_cons]; omega⟩

theorem decode_spec {s r : Bytes} {i : Item} (h : decode s = some (i, r)) :
    i.Encodable ∧ i.payload + r.length ≤ s.length := decodeItem_spec _ _ _ _ h

end Cbor
