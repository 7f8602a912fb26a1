import Mathlib.Tactic.Ring
import Mesa.Format.TranslateLaws

/-! The batch loops of the colour paths of `util_format_translate`. With the fuel the code
gives them they make one unpack/pack pair per full batch of `y_step` rows and one for the
rows left, every call within the scratch rows; batch `k` starts `k` steps below the first
rows, which is `k * y_step` pixel rows while a step does not wrap. -/
namespace Mesa.Format

section
variable (unpack pack : Capability) (srcFormat dstFormat : PipeFormat)
  (yStep width srcStride dstStride srcStep dstStep : Nat)

/-- The calls a batch loop is meant to make: one pair for each full batch of `yStep` rows,
batch `k` at `k` steps from the first rows, then one pair for the rows left. -/
def rowBatches (height : Nat) (srcRow dstRow : Int) : List Effect :=
  ((List.range (height / yStep)).flatMap fun k =>
    batchTail unpack pack srcFormat dstFormat width srcStride dstStride yStep
      (srcRow + (k * srcStep : Nat)) (dstRow + (k * dstStep : Nat))) ++
  batchTail unpack pack srcFormat dstFormat width srcStride dstStride (height % yStep)
    (srcRow + (height / yStep * srcStep : Nat)) (dstRow + (height / yStep * dstStep : Nat))

variable {unpack pack srcFormat dstFormat yStep width srcStride dstStride srcStep dstStep}

theorem rowBatches_of_lt {height : Nat} (short : height < yStep) (srcRow dstRow : Int) :
    rowBatches unpack pack srcFormat dstFormat yStep width srcStride dstStride srcStep dstStep
      height srcRow dstRow =
      batchTail unpack pack srcFormat dstFormat width srcStride dstStride height srcRow dstRow := by
  simp [rowBatches,Nat.div_eq_of_lt short,Nat.mod_eq_of_lt short]

theorem rowBatches_of_le {height : Nat} (pos : 0 < yStep) (full : yStep ≤ height)
    (srcRow dstRow : Int) :
    rowBatches unpack pack srcFormat dstFormat yStep width srcStride dstStride srcStep dstStep
      height srcRow dstRow =
      .call unpack srcFormat srcRow srcStride width yStep ::
        .call pack dstFormat dstRow dstStride width yStep ::
        rowBatches unpack pack srcFormat dstFormat yStep width srcStride dstStride srcStep dstStep
          (height - yStep) (srcRow + srcStep) (dstRow + dstStep) := by
  have shifted : ∀ (row : Int) (step k : Nat), row + ↑((k + 1) * step) = row + ↑step + ↑(k * step) := by
    intro row step k; push_cast; ring
  simp only [rowBatches,Nat.div_eq_sub_div pos full,Nat.mod_eq_sub_mod full,List.range_succ_eq_map,
    List.flatMap_cons,List.flatMap_map,Nat.succ_eq_add_one,shifted]
  simp [batchTail,pos.ne']

/-- With at least `height / yStep` iterations of fuel the loop makes the calls of
`rowBatches`: it runs out of rows before it runs out of fuel. -/
theorem batchLoop_eq_rowBatches (pos : 0 < yStep) :
    ∀ {fuel height : Nat} {srcRow dstRow : Int}, height / yStep ≤ fuel →
      batchLoop unpack pack srcFormat dstFormat yStep width srcStride dstStride srcStep dstStep
        fuel height srcRow dstRow =
      rowBatches unpack pack srcFormat dstFormat yStep width srcStride dstStride srcStep dstStep
        height srcRow dstRow
  | 0, height, srcRow, dstRow, enough => by
    have short : height < yStep := (Nat.div_eq_zero_iff pos).mp (Nat.le_zero.mp enough)
    rw [batchLoop,rowBatches_of_lt short]
  | fuel + 1, height, srcRow, dstRow, enough => by
    rw [batchLoop]
    split
    case isTrue full =>
      rw [rowBatches_of_le pos full,batchLoop_eq_rowBatches pos]
      rw [Nat.div_eq_sub_div pos full] at enough
      omega
    case isFalse short => rw [rowBatches_of_lt (Nat.lt_of_not_le short)]

theorem mem_rowBatches {height : Nat} {srcRow dstRow : Int} {e : Effect} (pos : 0 < yStep)
    (member : e ∈ rowBatches unpack pack srcFormat dstFormat yStep width srcStride dstStride
      srcStep dstStep height srcRow dstRow) :
    ∃ c f row stride rows, e = .call c f row stride width rows ∧ 0 < rows ∧ rows ≤ yStep := by
  have tail : ∀ {rows : Nat} {srcRow dstRow : Int}, rows ≤ yStep →
      e ∈ batchTail unpack pack srcFormat dstFormat width srcStride dstStride rows srcRow dstRow →
      ∃ c f row stride rows, e = .call c f row stride width rows ∧ 0 < rows ∧ rows ≤ yStep := by
    intro rows srcRow dstRow fits member
    unfold batchTail at member
    split at member
    · simp only [List.mem_cons,List.mem_singleton,List.not_mem_nil,or_false] at member
      rcases member with rfl | rfl <;> exact ⟨_,_,_,_,_,rfl,by omega,fits⟩
    · simp at member
  simp only [rowBatches,List.mem_append,List.mem_flatMap,List.mem_range] at member
  rcases member with ⟨k,-,member⟩ | member
  · exact tail le_rfl member
  · exact tail (Nat.mod_lt _ pos).le member
end

theorem translate_eq_rowBatches (table : FormatTable) (caps : Capabilities) (malloc : Nat → Bool)
    (dst : PipeFormat) (dstStride dstX dstY : Nat) (src : PipeFormat)
    (srcStride srcX srcY width height : Nat)
    (colour : translatePath table src dst ≠ .copy ∧ translatePath table src dst ≠ .depthStencil)
    (kept : (translatePath table src dst).rejects table caps src dst = false)
    (allocated : malloc 0 = true) :
    utilFormatTranslate table caps malloc dst dstStride dstX dstY src srcStride srcX srcY width
      height =
      let rows := rowsOf (table.description src) (table.description dst) dstStride dstX dstY
        srcStride srcX srcY
      (true,rowBatches (translatePath table src dst).routines.1
        (translatePath table src dst).routines.2 src dst rows.yStep width srcStride dstStride
        rows.srcStep rows.dstStep height rows.srcRow rows.dstRow) := by
  have pos : 0 < (rowsOf (table.description src) (table.description dst) dstStride dstX dstY
      srcStride srcX srcY).yStep := lt_max_of_lt_left (table.description dst).block.height_pos
  rw [translate_eq_path]
  generalize translatePath table src dst = path at colour kept ⊢
  cases path
  case copy => exact absurd rfl colour.1
  case depthStencil => exact absurd rfl colour.2
  all_goals
    simp only [kept,Bool.false_eq_true,↓reduceIte,convertRows,allocated]
    rw [batchLoop_eq_rowBatches pos (Nat.div_le_self _ _)]

/-- Each colour loop of `util_format_translate` ends for every height: it makes one call pair
per full batch of `y_step` rows and one for the rows left, and every call is on the
requested width and between one and `y_step` rows, within the scratch rows. -/
theorem translate_row_batches (table : FormatTable) (caps : Capabilities) (malloc : Nat → Bool)
    (dst : PipeFormat) (dstStride dstX dstY : Nat) (src : PipeFormat)
    (srcStride srcX srcY width height : Nat)
    (colour : translatePath table src dst ≠ .copy ∧ translatePath table src dst ≠ .depthStencil)
    (kept : (translatePath table src dst).rejects table caps src dst = false)
    (allocated : malloc 0 = true) :
    let rows := rowsOf (table.description src) (table.description dst) dstStride dstX dstY
      srcStride srcX srcY
    let calls := rowBatches (translatePath table src dst).routines.1
      (translatePath table src dst).routines.2 src dst rows.yStep width srcStride dstStride
      rows.srcStep rows.dstStep height rows.srcRow rows.dstRow
    utilFormatTranslate table caps malloc dst dstStride dstX dstY src srcStride srcX srcY width
      height = (true,calls) ∧
    ∀ e ∈ calls, ∃ c f row stride n, e = .call c f row stride width n ∧ 0 < n ∧ n ≤ rows.yStep :=
  ⟨translate_eq_rowBatches table caps malloc dst dstStride dstX dstY src srcStride srcX srcY width
      height colour kept allocated,
    fun _ member => mem_rowBatches (lt_max_of_lt_left (table.description dst).block.height_pos) member⟩

theorem translate_row_batches_dxt1 :
    (translatePath sampleTable .dxt1Rgb .r8g8b8a8Unorm ≠ .copy ∧
      translatePath sampleTable .dxt1Rgb .r8g8b8a8Unorm ≠ .depthStencil) ∧
    (translatePath sampleTable .dxt1Rgb .r8g8b8a8Unorm).rejects sampleTable sampleCapabilities .dxt1Rgb
      .r8g8b8a8Unorm = false ∧
    utilFormatTranslate sampleTable sampleCapabilities (fun _ => true) .r8g8b8a8Unorm 16 0 0 .dxt1Rgb 8 0 0
      4 6 = (true,[.call .unpackRgba8unorm .dxt1Rgb 0 8 4 4,.call .packRgba8unorm .r8g8b8a8Unorm 0 16 4 4,
        .call .unpackRgba8unorm .dxt1Rgb 8 8 4 2,.call .packRgba8unorm .r8g8b8a8Unorm 64 16 4 2]) :=
  ⟨by decide,by decide,by
    rw [(translate_row_batches sampleTable sampleCapabilities (fun _ => true) .r8g8b8a8Unorm 16 0 0
      .dxt1Rgb 8 0 0 4 6 (by decide) (by decide) rfl).1]
    decide⟩

/-- With a destination stride of 2^30 bytes the step of four rows wraps to zero: DXT1 to
R8G8B8A8_UNORM packs its second batch of four rows over the first, at byte 0 instead of
block row 4. -/
theorem batch_step_wraps :
    translatePath sampleTable .dxt1Rgb .r8g8b8a8Unorm = .unorm8 ∧
    utilFormatTranslate sampleTable sampleCapabilities (fun _ => true) .r8g8b8a8Unorm (2^30) 0 0
      .dxt1Rgb 8 0 0 4 8 =
      (true,[.call .unpackRgba8unorm .dxt1Rgb 0 8 4 4,.call .packRgba8unorm .r8g8b8a8Unorm 0 (2^30) 4 4,
        .call .unpackRgba8unorm .dxt1Rgb 8 8 4 4,.call .packRgba8unorm .r8g8b8a8Unorm 0 (2^30) 4 4]) ∧
    1 * 4 / (sampleTable.description .r8g8b8a8Unorm).block.height * 2^30 = 2^32 := by
  decide

end Mesa.Format
