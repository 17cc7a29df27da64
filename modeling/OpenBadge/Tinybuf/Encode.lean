import OpenBadge.Tinybuf.Format

/-!
# What `tb_encode` writes

`Writes x d` says that the encoder step `x` appends the bytes `d` whenever they
fit. Encoding a structure with valid counts and which-tags writes its encoding.
-/

namespace OpenBadge.Tinybuf

open OpenBadge.Lib

/-- The output stream behind `d` further bytes. -/
def TbOstream.append (o : TbOstream) (d : List UInt8) : TbOstream :=
  { o with
    buf := overwrite o.buf o.bytesWritten d
    bytesWritten := o.bytesWritten + d.length }

@[simp] theorem append_bufSize (o : TbOstream) (d : List UInt8) :
    (o.append d).bufSize = o.bufSize := rfl

@[simp] theorem append_bytesWritten (o : TbOstream) (d : List UInt8) :
    (o.append d).bytesWritten = o.bytesWritten + d.length := rfl

theorem append_nil (o : TbOstream) : o.append [] = o := by
  have h : overwrite o.buf o.bytesWritten [] = o.buf := by
    funext x
    by_cases hx : x < o.bytesWritten
    · exact overwrite_of_lt _ _ hx
    · exact overwrite_of_ge _ _ (by simpa using hx)
  unfold TbOstream.append
  rw [h]
  rfl

theorem append_append (o : TbOstream) (d e : List UInt8) :
    (o.append d).append e = o.append (d ++ e) := by
  unfold TbOstream.append
  simp only [overwrite_append, List.length_append, Nat.add_assoc]

/-- The step `x` appends exactly `d`, and returns 0 when `d` does not fit. A buffer
is an object of the target, so smaller than 2^31 bytes. -/
def Writes (x : Encode Unit) (d : List UInt8) : Prop :=
  ∀ o : TbOstream, o.bufSize < 2 ^ 31 → o.bytesWritten ≤ o.bufSize →
    (o.bytesWritten + d.length ≤ o.bufSize → x o = (.ok (), o.append d)) ∧
    (o.bufSize < o.bytesWritten + d.length → ∃ o', x o = (.error (), o'))

theorem Writes.nil : Writes (pure ()) [] := by
  intro o _ hle
  refine ⟨fun _ => ?_, fun h => ?_⟩
  · rw [append_nil]
    rfl
  · rw [List.length_nil] at h
    omega

theorem Writes.bind {x y : Encode Unit} {d e : List UInt8} (hx : Writes x d) (hy : Writes y e) :
    Writes (x >>= fun _ => y) (d ++ e) := by
  intro o hsize hle
  obtain ⟨hok, herr⟩ := hx o hsize hle
  rw [List.length_append]
  by_cases hd : o.bytesWritten + d.length ≤ o.bufSize
  · obtain ⟨hok', herr'⟩ := hy (o.append d) hsize hd
    rw [append_bytesWritten, append_bufSize] at hok' herr'
    rw [Proc.bind_ok (hok hd), ← append_append]
    exact ⟨fun h => hok' (by omega), fun h => herr' (by omega)⟩
  · obtain ⟨o', ho'⟩ := herr (by omega)
    rw [Proc.bind_error ho']
    exact ⟨fun h => absurd h (by omega), fun _ => ⟨o', rfl⟩⟩

theorem Writes.forUpTo {one : Nat → Encode Unit} {d : Nat → List UInt8} {n : Nat}
    (h : ∀ k < n, Writes (one k) (d k)) :
    Writes (Proc.forUpTo n one) ((List.range n).flatMap d) := by
  induction n with
  | zero => exact Writes.nil
  | succ n ih =>
    rw [List.range_succ, List.flatMap_append, List.flatMap_singleton]
    exact (ih fun k hk => h k (Nat.lt_succ_of_lt hk)).bind (h n (Nat.lt_succ_self n))

theorem tbWriteToOstream_writes {d : List UInt8} (hd : d.length < 2 ^ 31) :
    Writes (tbWriteToOstream d) d := by
  intro o hsize hle
  unfold tbWriteToOstream
  rw [Proc.get_bind_apply]
  refine ⟨fun hfit => ?_, fun hfull => ⟨o, ?_⟩⟩
  · rw [Proc.failIf_bind_neg (by rw [Nat.mod_eq_of_lt (by omega)]; omega)]
    rfl
  · rw [Proc.failIf_bind_pos (by rw [Nat.mod_eq_of_lt (by omega)]; omega)]

theorem tbWriteToOstreamBigEndian_writes (host out : TbEndian) (src : Memory)
    (data len : Nat) {dataSize : Nat} (hsize : dataSize < 2 ^ 31) :
    Writes (tbWriteToOstreamBigEndian host src data dataSize len out)
      ((List.range len).flatMap fun i =>
        convertEndianness host (slice src (data + i * dataSize) dataSize) out) :=
  Writes.forUpTo fun _ _ => tbWriteToOstream_writes (by simpa using hsize)

section Field

variable {host out : TbEndian} {src : Memory} {f : TbField} {size base : Nat}
  {tagValid : UInt8 → Bool} {one : Nat → Encode Unit} {d : Nat → List UInt8}

theorem Writes.failIf {p : Prop} [Decidable p] {x : Encode Unit} {d : List UInt8} (hp : ¬ p)
    (h : Writes x d) : Writes (Proc.failIf p () >>= fun _ => x) d := by
  intro o hsize hle
  rw [Proc.failIf_bind_neg hp]
  exact h o hsize hle

theorem slice_one (m : Memory) (a : Nat) : slice m a 1 = [m a] := rfl

/-- A valid field writes its head and the entries that are present. -/
theorem encodeField_writes (hf : f.WellFormed size) (hv : f.Valid host src tagValid base)
    (hone : ∀ k < f.present host src base, Writes (one k) (d k)) :
    Writes (encodeField host out src f tagValid base fun n => Proc.forUpTo n one)
      (f.head host src out base ++ (List.range (f.present host src base)).flatMap d) := by
  have hentries := Writes.forUpTo hone
  unfold encodeField TbField.head
  unfold TbField.present at hentries ⊢
  cases hft : f.fieldType with
  | none => exact absurd hf.fieldType_isSome (by simp [hft])
  | some r =>
    rw [hft] at hentries
    cases r with
    | required =>
      rw [if_neg (by simp [TbField.sendsSize, TbField.hasSize, hft])]
      exact hentries
    | fixedRepeated =>
      rw [if_neg (by simp [TbField.sendsSize, TbField.hasSize, hft])]
      exact hentries
    | optional =>
      have hsize := hf.flag_size (.inl hft)
      rw [if_pos (by simp [TbField.sendsSize, TbField.hasSize, TbField.continuesOneof, hft])]
      rw [TbField.sizeValue, hsize, readNumber_one] at hentries ⊢
      rw [slice_one, convertEndianness_singleton]
      dsimp only
      simp only [Proc.when_forUpTo_one, ne_eq, ← UInt8.toNat_inj] at hentries ⊢
      exact (tbWriteToOstream_writes (by simp)).bind hentries
    | repeated =>
      rw [if_pos (by simp [TbField.sendsSize, TbField.hasSize, TbField.continuesOneof, hft])]
      have hcount := hf.count_size hft
      have hle := hv.1 hft
      refine Writes.failIf (by simp at hcount; omega) ?_
      refine Writes.failIf (by unfold TbField.sizeValue at hle; omega) ?_
      have hwrite := tbWriteToOstreamBigEndian_writes host out src (f.sizePtr base) 1
        (show f.sizeSize < 2 ^ 31 by simp at hcount; omega)
      simp only [List.range_one, List.flatMap_singleton, Nat.zero_mul, Nat.add_zero] at hwrite
      exact hwrite.bind hentries
    | oneof =>
      have hsize := hf.flag_size (.inr hft)
      rw [TbField.sizeValue, hsize, readNumber_one] at hentries ⊢
      rw [slice_one, convertEndianness_singleton]
      dsimp only
      simp only [Proc.when_forUpTo_one, ← UInt8.toNat_inj] at hentries ⊢
      by_cases hfirst : f.oneofFirst = true
      · have hsend : f.sendsSize = true := by
          simp [TbField.sendsSize, TbField.hasSize, TbField.continuesOneof, hft, hfirst]
        rw [if_pos hsend, Proc.when_pos hfirst]
        exact (Writes.failIf (by simp [hv.2 hft hfirst]) (tbWriteToOstream_writes (by simp))).bind hentries
      · have hsend : ¬ f.sendsSize = true := by
          simp [TbField.sendsSize, TbField.hasSize, TbField.continuesOneof, hft, hfirst]
        rw [if_neg hsend, Proc.when_neg hfirst]
        exact Writes.nil.bind hentries

end Field

theorem mod_dataSize {f : TbField} {size : Nat} (hf : f.WellFormed size)
    (hn : f.dataKind = some .number) : f.dataSize % 256 = f.dataSize := by
  have h := hf.number_size hn
  simp only [List.mem_cons, List.not_mem_nil, or_false] at h
  omega

theorem numberSize_lt {f : TbField} {size : Nat} (hf : f.WellFormed size)
    (hn : f.dataKind = some .number) : f.dataSize < 2 ^ 31 := by
  have h := hf.number_size hn
  simp only [List.mem_cons, List.not_mem_nil, or_false] at h
  omega

/-- `tb_encode` of a structure with valid counts and tags writes its encoding. -/
theorem tbEncode_writes (host out : TbEndian) (src : Memory) (fields : Fields) :
    ∀ {size base : Nat}, fields.Describes size → fields.Valid host src base →
      Writes (tbEncode host out src fields base) (fields.encoding host src out base) := by
  induction fields with
  | last => exact fun _ _ => Writes.nil
  | entry f ptr next ihp ihn =>
    rintro size base ⟨hf, hptr, -, -, hdn⟩ ⟨hvf, hvp, hvn⟩
    unfold tbEncode Fields.encoding
    refine Writes.bind ?_ (ihn hdn hvn)
    cases hkind : f.dataKind with
    | none => exact absurd hf.dataKind_isSome (by simp [hkind])
    | some kind =>
      cases kind with
      | number =>
        simp only [reduceCtorEq, Option.some.injEq, if_false, mod_dataSize hf hkind]
        exact encodeField_writes hf hvf fun k _ =>
          tbWriteToOstream_writes (by simpa using numberSize_lt hf hkind)
      | message =>
        simp only [if_true]
        exact encodeField_writes hf hvf fun k hk => ihp (hptr hkind).1 (hvp hkind k hk)

end OpenBadge.Tinybuf
