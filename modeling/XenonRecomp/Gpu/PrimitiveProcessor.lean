/-
# Primitives are drawn as the guest gives them

`process_primitives` (`src/graphics/xenos/primitive_processor.cpp`) turns a draw
of any primitive type into points, lines or triangles.  `guestPrimitives` says
which primitives a type makes of a sequence of vertices, and `guestDraw` which
ones a draw makes of its indices, cut where a reset index stands; the host's are
what it reads off the batch (`ProcessedPrimitiveBatch.primitives`).

A conversion appends the vertices of the primitives one after the other
(`convertTopology_eq`), so the loop over the ranges between reset indices appends
those of all ranges (`convertRanges_eq`), and grouping the indices again gives the
primitives back (`hostPrimitives_vertices`).

The list of an automatic draw is left out when it has as many indices as the draw
has.  That is right when the list counts them up, and wrong for one list
(`DropsQuads`): a quad and a half has six indices, and so have the two triangles
of its one quad.
-/

import XenonRecomp.Gpu.CommandProcessor

namespace XenonRecomp
namespace Gpu

/-! ### The source -/

/-- `PrimitiveType`; `unnamed` stands for the codes without an enumerator. -/
inductive PrimitiveType where
  | none | pointList | lineList | lineStrip | triangleList | triangleFan | triangleStrip
  | triangleWithWFlags | rectangleList | lineLoop | quadList | quadStrip | polygon
  | copyRectList0 | copyRectList1 | copyRectList2 | copyRectList3 | fillRectList
  | twoDLineStrip | twoDTriStrip | unnamed
deriving DecidableEq, Repr

/-- The enumerator of a code. -/
def PrimitiveType.ofCode : ℕ → PrimitiveType
  | 0x00 => .none
  | 0x01 => .pointList
  | 0x02 => .lineList
  | 0x03 => .lineStrip
  | 0x04 => .triangleList
  | 0x05 => .triangleFan
  | 0x06 => .triangleStrip
  | 0x07 => .triangleWithWFlags
  | 0x08 => .rectangleList
  | 0x0C => .lineLoop
  | 0x0D => .quadList
  | 0x0E => .quadStrip
  | 0x0F => .polygon
  | 0x10 => .copyRectList0
  | 0x11 => .copyRectList1
  | 0x12 => .copyRectList2
  | 0x13 => .copyRectList3
  | 0x14 => .fillRectList
  | 0x15 => .twoDLineStrip
  | 0x16 => .twoDTriStrip
  | _ => .unnamed

/-- `HostPrimitiveTopology`. -/
inductive HostPrimitiveTopology where
  | pointList | lineList | triangleList
deriving DecidableEq, Repr

/-- `PrimitiveProcessingOptions`. -/
structure PrimitiveProcessingOptions where
  resetEnabled : Bool := false
  resetIndex : BitVec 32 := 0
deriving DecidableEq, Repr

/-- `ProcessedPrimitiveBatch`. -/
structure ProcessedPrimitiveBatch where
  topology : HostPrimitiveTopology := .triangleList
  indices : List (BitVec 32) := []
  vertexCount : ℕ := 0
  error : String := ""
  indexed : Bool := false
  requiresRectangleExpansion : Bool := false
  valid : Bool := false
deriving DecidableEq, Repr

/-- `swap16`. -/
def swap16 (value : BitVec 16) : Endian → BitVec 16
  | .none => value
  | .swap8In16 | .swap8In32 => (value <<< 8) ||| (value >>> 8)
  | .swap16In32 => value

/-- What `append_triangle` appends. -/
def appendTriangle (a b c : BitVec 32) : List (BitVec 32) :=
  if a = b ∨ b = c ∨ a = c then [] else [a, b, c]

/-- `convert_topology`: the answer and the batch. -/
def convertTopology (type : PrimitiveType) (input : List (BitVec 32))
    (result : ProcessedPrimitiveBatch) : Bool × ProcessedPrimitiveBatch :=
  let at' (i : ℕ) : BitVec 32 := input.getD i 0
  let size := input.length
  match type with
  | .pointList => (true, { result with topology := .pointList, indices := input })
  | .lineList =>
      (true, { result with topology := .lineList, indices := input.take (size / 2 * 2) })
  | .lineStrip | .twoDLineStrip =>
      -- the loops start at `i = 1` and `i = 2`; `k` is how far they have come
      (true, { result with
        topology := .lineList
        indices := result.indices ++ (List.range (size - 1)).flatMap fun k =>
          [at' k, at' (k + 1)] })
  | .lineLoop =>
      (true, { result with
        topology := .lineList
        indices := result.indices ++ ((List.range (size - 1)).flatMap fun k =>
          [at' k, at' (k + 1)]) ++ if 1 < size then [at' (size - 1), at' 0] else [] })
  | .triangleList =>
      (true, { result with topology := .triangleList, indices := input.take (size / 3 * 3) })
  | .rectangleList | .copyRectList0 | .copyRectList1 | .copyRectList2 | .copyRectList3
  | .fillRectList =>
      (true, { result with
        topology := .triangleList
        requiresRectangleExpansion := true
        indices := input.take (size / 3 * 3) })
  | .triangleStrip | .twoDTriStrip =>
      (true, { result with
        topology := .triangleList
        indices := result.indices ++ (List.range (size - 2)).flatMap fun k =>
          if (k + 2) % 2 = 1 then appendTriangle (at' (k + 1)) (at' k) (at' (k + 2))
          else appendTriangle (at' k) (at' (k + 1)) (at' (k + 2)) })
  | .triangleFan | .polygon =>
      (true, { result with
        topology := .triangleList
        indices := result.indices ++ (List.range (size - 2)).flatMap fun k =>
          appendTriangle (at' 0) (at' (k + 1)) (at' (k + 2)) })
  | .quadList =>
      -- `i + 3 < size` for `i = 4 * k`
      (true, { result with
        topology := .triangleList
        indices := result.indices ++ (List.range (size / 4)).flatMap fun k =>
          appendTriangle (at' (4 * k)) (at' (4 * k + 1)) (at' (4 * k + 2)) ++
            appendTriangle (at' (4 * k)) (at' (4 * k + 2)) (at' (4 * k + 3)) })
  | .quadStrip =>
      -- `i + 3 < size` for `i = 2 * k`
      (true, { result with
        topology := .triangleList
        indices := result.indices ++ (List.range ((size - 2) / 2)).flatMap fun k =>
          appendTriangle (at' (2 * k)) (at' (2 * k + 1)) (at' (2 * k + 2)) ++
            appendTriangle (at' (2 * k + 2)) (at' (2 * k + 1)) (at' (2 * k + 3)) })
  | .none | .triangleWithWFlags | .unnamed =>
      (false, { result with error := "Xenos primitive requires a dedicated expansion path" })

/-- `supports_primitive_reset`. -/
def supportsPrimitiveReset : PrimitiveType → Bool
  | .lineStrip | .triangleFan | .triangleStrip | .lineLoop | .quadStrip | .polygon
  | .twoDLineStrip | .twoDTriStrip => true
  | _ => false

/-- The loop of `convert_with_primitive_reset`, with the rest of the input and the
part from `begin` on, the last index first. -/
def convertRanges (type : PrimitiveType) (resetIndex : BitVec 32) :
    List (BitVec 32) → List (BitVec 32) → Bool → ProcessedPrimitiveBatch →
      Bool × ProcessedPrimitiveBatch
  | [], range, emittedRange, result =>
      if range = [] then
        if emittedRange then (true, result) else convertTopology type [] result
      else convertTopology type range.reverse result
  | index :: input, range, emittedRange, result =>
      if index = resetIndex then
        if range = [] then convertRanges type resetIndex input [] emittedRange result
        else
          let (converted, result) := convertTopology type range.reverse result
          if converted then convertRanges type resetIndex input [] true result
          else (false, result)
      else convertRanges type resetIndex input (index :: range) emittedRange result

/-- `convert_with_primitive_reset`. -/
def convertWithPrimitiveReset (type : PrimitiveType) (input : List (BitVec 32))
    (resetIndex : BitVec 32) (result : ProcessedPrimitiveBatch) :
    Bool × ProcessedPrimitiveBatch :=
  convertRanges type resetIndex input [] false result

/-- One index of a buffer in memory; there is none outside of it. -/
def loadIndex (memory : List (BitVec 8)) (data : ℕ) (format : IndexFormat) (endian : Endian)
    (i : ℕ) : Option (BitVec 32) :=
  match format with
  | .uint32 => do
      let b₀ ← memory[data + i * 4]?
      let b₁ ← memory[data + i * 4 + 1]?
      let b₂ ← memory[data + i * 4 + 2]?
      let b₃ ← memory[data + i * 4 + 3]?
      pure (gpuSwap (b₃ ++ b₂ ++ b₁ ++ b₀) endian &&& 0x00FFFFFF)
  | .uint16 => do
      let b₀ ← memory[data + i * 2]?
      let b₁ ← memory[data + i * 2 + 1]?
      pure ((swap16 (b₁ ++ b₀) endian).setWidth 32)

/-- The indices of a draw, or the error; nothing when memory is read outside. -/
def decodedIndices (draw : DrawPacket) (memory : List (BitVec 8)) (physicalBase : ℕ) :
    Option (Except String (List (BitVec 32))) :=
  match draw.source with
  | .autoIndex => some (.ok ((List.range draw.indexCount).map (BitVec.ofNat 32)))
  | .dma =>
      match draw.indexBuffer with
      | none => some (.error "Xenos DMA index buffer is outside physical memory")
      | some buffer =>
          let bytesPerIndex := buffer.format.sizeBytes
          let count := min draw.indexCount (buffer.lengthBytes / bytesPerIndex)
          if buffer.physicalAddress < physicalBase ∨
              physicalBase + memory.length < buffer.physicalAddress + count * bytesPerIndex then
            some (.error "Xenos DMA index buffer is outside physical memory")
          else
            ((List.range count).mapM (loadIndex memory (buffer.physicalAddress - physicalBase)
              buffer.format buffer.endian)).map .ok
  | .immediate =>
      let source := draw.immediateIndexDwords.flatMap fun (dword : BitVec 32) =>
        if draw.indexFormat = .uint32 then [dword &&& 0x00FFFFFF]
        else [dword &&& 0xFFFF, dword >>> 16]
      some (.ok (source.take draw.indexCount))
  | .reserved => some (.error "reserved Xenos draw source")

/-- Whether reset indices count, and which one does. -/
def resetIndexOf (draw : DrawPacket) (options : PrimitiveProcessingOptions) :
    Option (BitVec 32) :=
  let resetIndex := options.resetIndex &&& 0x00FFFFFF
  if options.resetEnabled ∧ draw.source ≠ .autoIndex ∧
      supportsPrimitiveReset (.ofCode draw.primitiveType) ∧
      ¬(draw.indexFormat = .uint16 ∧ 0xFFFF < resetIndex) then
    some resetIndex
  else none

/-- `process_primitives`; nothing when memory is read outside. -/
def processPrimitives (draw : DrawPacket) (memory : List (BitVec 8))
    (options : PrimitiveProcessingOptions) (physicalBase : ℕ) :
    Option ProcessedPrimitiveBatch :=
  (decodedIndices draw memory physicalBase).map fun
    | .error error => { error }
    | .ok source =>
        let type := PrimitiveType.ofCode draw.primitiveType
        let (converted, result) :=
          match resetIndexOf draw options with
          | some resetIndex => convertWithPrimitiveReset type source resetIndex {}
          | none => convertTopology type source {}
        if converted then
          { result with
            vertexCount := result.indices.length % 2 ^ 32
            indexed := draw.source ≠ .autoIndex ∨ result.indices.length ≠ draw.indexCount
            valid := true }
        else result

/-! ### What is drawn -/

/-- A primitive with its vertices in order. -/
inductive Primitive (α : Type) where
  | point (a : α)
  | line (a b : α)
  | triangle (a b c : α)
deriving DecidableEq, Repr

namespace Primitive

variable {α : Type}

def vertices : Primitive α → List α
  | point a => [a]
  | line a b => [a, b]
  | triangle a b c => [a, b, c]

def topology : Primitive α → HostPrimitiveTopology
  | point _ => .pointList
  | line _ _ => .lineList
  | triangle _ _ _ => .triangleList

/-- Two of three corners are one vertex. -/
def degenerate [DecidableEq α] : Primitive α → Bool
  | triangle a b c => a = b ∨ b = c ∨ a = c
  | _ => false

/-- Every two vertices a line. -/
def lines : List α → List (Primitive α)
  | a :: b :: rest => line a b :: lines rest
  | _ => []

/-- Every three vertices a triangle. -/
def triangles : List α → List (Primitive α)
  | a :: b :: c :: rest => triangle a b c :: triangles rest
  | _ => []

/-- A line from each vertex to the next. -/
def lineStrip (v : List α) : List (Primitive α) :=
  v.zipWith line v.tail

/-- A triangle of each vertex and the two after it; every second one goes round
the other way, so that all have one winding. -/
def triangleStrip : Bool → List α → List (Primitive α)
  | odd, a :: b :: c :: rest =>
      (if odd then triangle b a c else triangle a b c) :: triangleStrip (!odd) (b :: c :: rest)
  | _, _ => []

/-- Every four vertices a quad, of two triangles. -/
def quads : List α → List (Primitive α)
  | a :: b :: c :: d :: rest => triangle a b c :: triangle a c d :: quads rest
  | _ => []

/-- A quad of each second edge and the next one. -/
def quadStrip : List α → List (Primitive α)
  | a :: b :: c :: d :: rest => triangle a b c :: triangle c b d :: quadStrip (c :: d :: rest)
  | _ => []

end Primitive

open Primitive

/-- The primitives of a type over a sequence of vertices; a rectangle is given by
three corners. -/
def guestPrimitives {α : Type} (type : PrimitiveType) (v : List α) : List (Primitive α) :=
  match type with
  | .pointList => v.map point
  | .lineList => lines v
  | .lineStrip | .twoDLineStrip => lineStrip v
  | .lineLoop =>
      match v with
      | a :: b :: rest => lineStrip v ++ [line (rest.getLastD b) a]
      | _ => []
  | .triangleList | .rectangleList | .copyRectList0 | .copyRectList1 | .copyRectList2
  | .copyRectList3 | .fillRectList => triangles v
  | .triangleStrip | .twoDTriStrip => triangleStrip false v
  | .triangleFan | .polygon =>
      match v with
      | a :: rest => rest.zipWith (triangle a) rest.tail
      | [] => []
  | .quadList => quads v
  | .quadStrip => quadStrip v
  | .none | .triangleWithWFlags | .unnamed => []

/-- The types that are lists of primitives already; of these none is left out. -/
def PrimitiveType.isList : PrimitiveType → Bool
  | .pointList | .lineList | .triangleList | .rectangleList | .copyRectList0 | .copyRectList1
  | .copyRectList2 | .copyRectList3 | .fillRectList => true
  | _ => false

def PrimitiveType.isRectangle : PrimitiveType → Bool
  | .rectangleList | .copyRectList0 | .copyRectList1 | .copyRectList2 | .copyRectList3
  | .fillRectList => true
  | _ => false

/-- The primitives that are drawn: all but triangles without an area. -/
def drawnPrimitives (type : PrimitiveType) (v : List (BitVec 32)) : List (Primitive (BitVec 32)) :=
  (guestPrimitives type v).filter fun p => type.isList || !p.degenerate

/-- **What a draw shows**: the primitives of its indices, from each reset index on
anew. -/
def guestDraw (draw : DrawPacket) (options : PrimitiveProcessingOptions)
    (v : List (BitVec 32)) : List (Primitive (BitVec 32)) :=
  let type := PrimitiveType.ofCode draw.primitiveType
  match resetIndexOf draw options with
  | some resetIndex => (v.splitOnP (· == resetIndex)).flatMap (drawnPrimitives type)
  | none => drawnPrimitives type v

/-- The primitives the host forms of a sequence of vertices. -/
def hostPrimitives {α : Type} (topology : HostPrimitiveTopology) (v : List α) :
    List (Primitive α) :=
  match topology with
  | .pointList => v.map point
  | .lineList => lines v
  | .triangleList => triangles v

/-- The primitives of a batch: of its index list when it has one, else of the
vertices counted up. -/
def ProcessedPrimitiveBatch.primitives (batch : ProcessedPrimitiveBatch) :
    List (Primitive (BitVec 32)) :=
  hostPrimitives batch.topology
    (if batch.indexed then batch.indices
      else (List.range batch.vertexCount).map (BitVec.ofNat 32))

/-! ### Grouping the vertices again -/

/-- **The host forms the primitives whose vertices it is given.** -/
theorem hostPrimitives_vertices {α : Type} {t : HostPrimitiveTopology} {ps : List (Primitive α)}
    (h : ∀ p ∈ ps, p.topology = t) : hostPrimitives t (ps.flatMap vertices) = ps := by
  induction ps with
  | nil => cases t <;> rfl
  | cons p ps ih =>
    have ih := ih fun q hq => h q (List.mem_cons_of_mem p hq)
    obtain rfl := h p List.mem_cons_self
    cases p <;> simpa [hostPrimitives, topology, vertices, lines, triangles] using ih

/-- The host topology of a type. -/
def PrimitiveType.hostTopology : PrimitiveType → HostPrimitiveTopology
  | .pointList => .pointList
  | .lineList | .lineStrip | .twoDLineStrip | .lineLoop => .lineList
  | _ => .triangleList

theorem lines_vertices {α : Type} (v : List α) :
    (lines v).flatMap vertices = v.take (v.length / 2 * 2) := by
  induction v using lines.induct with
  | case1 a b rest ih =>
    have hdiv : (rest.length + 1 + 1) / 2 * 2 = rest.length / 2 * 2 + 1 + 1 := by omega
    simp [lines, vertices, hdiv, ih]
  | case2 v hv =>
    rcases v with _ | ⟨a, _ | ⟨b, rest⟩⟩
    · simp [lines]
    · simp [lines]
    · exact absurd rfl (hv a b rest)

theorem triangles_vertices {α : Type} (v : List α) :
    (triangles v).flatMap vertices = v.take (v.length / 3 * 3) := by
  induction v using triangles.induct with
  | case1 a b c rest ih =>
    have hdiv : (rest.length + 1 + 1 + 1) / 3 * 3 = rest.length / 3 * 3 + 1 + 1 + 1 := by omega
    simp [triangles, vertices, hdiv, ih]
  | case2 v hv =>
    rcases v with _ | ⟨a, _ | ⟨b, _ | ⟨c, rest⟩⟩⟩
    · simp [triangles]
    · simp [triangles]
    · simp [triangles]
    · exact absurd rfl (hv a b c rest)

/-! ### The loops of the conversion -/

/-- A loop over the positions of a list that begins with `a`. -/
theorem range_succ_flatMap {β : Type} (n : ℕ) (f : ℕ → List β) :
    (List.range (n + 1)).flatMap f = f 0 ++ (List.range n).flatMap fun k => f (k + 1) := by
  rw [List.range_succ_eq_map, List.flatMap_cons, List.flatMap_map]

/-- Each vertex with the next. -/
theorem zipWith_tail_eq (f : BitVec 32 → BitVec 32 → Primitive (BitVec 32))
    (v : List (BitVec 32)) :
    v.zipWith f v.tail =
      (List.range (v.length - 1)).map fun k => f (v.getD k 0) (v.getD (k + 1) 0) := by
  refine List.ext_getElem (by simp) fun k hk hk' => ?_
  have hnext : k + 1 < v.length := by simpa [Nat.lt_sub_iff_add_lt] using hk'
  simp [hnext, Nat.lt_of_succ_lt hnext]

theorem lineLoop_eq (v : List (BitVec 32)) :
    guestPrimitives .lineLoop v =
      ((List.range (v.length - 1)).map fun k => line (v.getD k 0) (v.getD (k + 1) 0)) ++
        if 1 < v.length then [line (v.getD (v.length - 1) 0) (v.getD 0 0)] else [] := by
  rcases v with _ | ⟨a, _ | ⟨b, rest⟩⟩
  · rfl
  · rfl
  · rw [← zipWith_tail_eq, if_pos (by simp)]
    simp [guestPrimitives, lineStrip, List.getLastD_eq_getLast?, List.getLast?_eq_getElem?]
    cases rest <;> simp

theorem triangleStrip_eq (odd : Bool) (v : List (BitVec 32)) :
    triangleStrip odd v = (List.range (v.length - 2)).map fun k =>
      if (k + odd.toNat) % 2 = 1 then
        triangle (v.getD (k + 1) 0) (v.getD k 0) (v.getD (k + 2) 0)
      else triangle (v.getD k 0) (v.getD (k + 1) 0) (v.getD (k + 2) 0) := by
  fun_induction triangleStrip odd v with
  | case1 odd a b c rest ih =>
    have hparity : ∀ k, (k + 1 + odd.toNat) % 2 = 1 ↔ (k + (!odd).toNat) % 2 = 1 := by
      cases odd <;> simp
      omega
    simp [ih, List.range_succ_eq_map, hparity]
    cases odd <;> simp
  | case2 v odd hv =>
    rcases v with _ | ⟨a, _ | ⟨b, _ | ⟨c, rest⟩⟩⟩
    iterate 3 rfl
    exact (hv a b c rest rfl).elim

theorem fan_eq {type : PrimitiveType} (v : List (BitVec 32))
    (h : type = .triangleFan ∨ type = .polygon) :
    guestPrimitives type v = (List.range (v.length - 2)).map fun k =>
      triangle (v.getD 0 0) (v.getD (k + 1) 0) (v.getD (k + 2) 0) := by
  rcases h with rfl | rfl
  all_goals
    cases v with
    | nil => rfl
    | cons a v => exact zipWith_tail_eq (triangle a) v

theorem quads_eq (v : List (BitVec 32)) :
    quads v = (List.range (v.length / 4)).flatMap fun k =>
      [triangle (v.getD (4 * k) 0) (v.getD (4 * k + 1) 0) (v.getD (4 * k + 2) 0),
        triangle (v.getD (4 * k) 0) (v.getD (4 * k + 2) 0) (v.getD (4 * k + 3) 0)] := by
  fun_induction quads v with
  | case1 a b c d rest ih =>
    have hdiv : (a :: b :: c :: d :: rest).length / 4 = rest.length / 4 + 1 := by
      simp only [List.length_cons]
      omega
    rw [hdiv, range_succ_flatMap, ih]
    rfl
  | case2 v hv =>
    rcases v with _ | ⟨a, _ | ⟨b, _ | ⟨c, _ | ⟨d, rest⟩⟩⟩⟩
    iterate 4 simp
    exact (hv a b c d rest rfl).elim

theorem quadStrip_eq (v : List (BitVec 32)) :
    quadStrip v = (List.range ((v.length - 2) / 2)).flatMap fun k =>
      [triangle (v.getD (2 * k) 0) (v.getD (2 * k + 1) 0) (v.getD (2 * k + 2) 0),
        triangle (v.getD (2 * k + 2) 0) (v.getD (2 * k + 1) 0) (v.getD (2 * k + 3) 0)] := by
  fun_induction quadStrip v with
  | case1 a b c d rest ih =>
    have hdiv : ((a :: b :: c :: d :: rest).length - 2) / 2 =
        ((c :: d :: rest).length - 2) / 2 + 1 := by
      simp only [List.length_cons]
      omega
    rw [hdiv, range_succ_flatMap, ih]
    rfl
  | case2 v hv =>
    rcases v with _ | ⟨a, _ | ⟨b, _ | ⟨c, _ | ⟨d, rest⟩⟩⟩⟩
    iterate 4 simp
    exact (hv a b c d rest rfl).elim

/-- What is left out of a loop is what each round leaves out. -/
theorem flatMap_filter {α β : Type} (p : α → Bool) (f : α → List β) (l : List α) :
    (l.filter p).flatMap f = l.flatMap fun x => if p x then f x else [] := by
  induction l with
  | nil => rfl
  | cons x l ih => cases hx : p x <;> simp [hx, ih]

/-- The corners that are appended are those of a triangle with an area. -/
theorem appendTriangle_eq (a b c : BitVec 32) :
    appendTriangle a b c =
      if !(triangle a b c).degenerate then (triangle a b c).vertices else [] := by
  by_cases h : a = b ∨ b = c ∨ a = c <;> simp [appendTriangle, degenerate, vertices, h]

/-! ### What a conversion appends -/

/-- The types that are converted. -/
def PrimitiveType.converts : PrimitiveType → Bool
  | .none | .triangleWithWFlags | .unnamed => false
  | _ => true

/-- All primitives of a type are of its host topology. -/
theorem topology_of_mem_guestPrimitives {type : PrimitiveType} {v : List (BitVec 32)}
    {p : Primitive (BitVec 32)} (h : p ∈ guestPrimitives type v) :
    p.topology = type.hostTopology := by
  have hlines : ∀ v : List (BitVec 32), ∀ p ∈ lines v, p.topology = .lineList := by
    intro v
    induction v using lines.induct with
    | case1 a b rest ih => simpa [lines, topology] using ih
    | case2 v hv => simp [lines]
  have htriangles : ∀ v : List (BitVec 32), ∀ p ∈ triangles v, p.topology = .triangleList := by
    intro v
    induction v using triangles.induct with
    | case1 a b c rest ih => simpa [triangles, topology] using ih
    | case2 v hv => simp [triangles]
  cases type with
  | pointList =>
    obtain ⟨k, -, rfl⟩ := List.mem_map.1 h
    rfl
  | lineStrip | twoDLineStrip =>
    rw [guestPrimitives, lineStrip, zipWith_tail_eq] at h
    obtain ⟨k, -, rfl⟩ := List.mem_map.1 h
    rfl
  | triangleFan | polygon =>
    rw [fan_eq _ (by decide)] at h
    obtain ⟨k, -, rfl⟩ := List.mem_map.1 h
    rfl
  | lineList => exact hlines v p h
  | lineLoop =>
    rw [lineLoop_eq] at h
    rcases List.mem_append.1 h with h | h
    · obtain ⟨k, -, rfl⟩ := List.mem_map.1 h
      rfl
    · split at h
      · rw [List.mem_singleton.1 h]
        rfl
      · cases h
  | triangleList | rectangleList | copyRectList0 | copyRectList1 | copyRectList2
  | copyRectList3 | fillRectList => exact htriangles v p h
  | triangleStrip | twoDTriStrip =>
    rw [guestPrimitives, triangleStrip_eq] at h
    obtain ⟨k, -, rfl⟩ := List.mem_map.1 h
    split <;> rfl
  | quadList | quadStrip =>
    simp only [guestPrimitives, quads_eq, quadStrip_eq] at h
    obtain ⟨k, -, h⟩ := List.mem_flatMap.1 h
    rcases List.mem_pair.1 h with rfl | rfl <;> rfl
  | none | triangleWithWFlags | unnamed => cases h

/-- **One conversion appends the vertices of the primitives that are drawn**; a list
takes the place of what was there. -/
theorem convertTopology_eq {type : PrimitiveType} (h : type.converts = true)
    (v : List (BitVec 32)) (result : ProcessedPrimitiveBatch) :
    convertTopology type v result = (true, { result with
      topology := type.hostTopology
      requiresRectangleExpansion := type.isRectangle || result.requiresRectangleExpansion
      indices := (if type.isList then [] else result.indices) ++
        (drawnPrimitives type v).flatMap vertices }) := by
  have hpoints : (v.map point).flatMap vertices = v := by
    rw [List.flatMap_map]
    exact List.flatMap_singleton' v
  have hlist : ∀ t : PrimitiveType, t.isList = true →
      drawnPrimitives t v = guestPrimitives t v := by
    intro t ht
    simp only [drawnPrimitives, ht, Bool.true_or, List.filter_true]
  have hlines : ∀ t : PrimitiveType, t.hostTopology ≠ .triangleList →
      drawnPrimitives t v = guestPrimitives t v := by
    intro t ht
    refine List.filter_eq_self.2 fun p hp => ?_
    have htopology := topology_of_mem_guestPrimitives hp
    cases p with
    | triangle a b c => exact absurd htopology.symm ht
    | point a => exact Bool.or_true _
    | line a b => exact Bool.or_true _
  cases type with
  | none | triangleWithWFlags | unnamed => cases h
  | pointList =>
    rw [hlist _ rfl, guestPrimitives, hpoints]
    rfl
  | lineList =>
    rw [hlist _ rfl, guestPrimitives, lines_vertices]
    rfl
  | triangleList | rectangleList | copyRectList0 | copyRectList1 | copyRectList2
  | copyRectList3 | fillRectList =>
    rw [hlist _ rfl, guestPrimitives, triangles_vertices]
    rfl
  | lineStrip | twoDLineStrip =>
    rw [hlines _ (by decide), guestPrimitives, lineStrip, zipWith_tail_eq,
      List.flatMap_map]
    rfl
  | lineLoop =>
    rw [hlines _ (by decide), lineLoop_eq, List.flatMap_append, List.flatMap_map,
      apply_ite (List.flatMap vertices), ← List.append_assoc]
    rfl
  | triangleStrip | twoDTriStrip =>
    simp only [drawnPrimitives, PrimitiveType.isList, Bool.false_or, guestPrimitives,
      triangleStrip_eq, Bool.toNat_false, Nat.add_zero, flatMap_filter, List.flatMap_map]
    have hround : ∀ (k : ℕ) (p q : Primitive (BitVec 32)),
        (if !(if k % 2 = 1 then p else q).degenerate then
          (if k % 2 = 1 then p else q).vertices else []) =
        if k % 2 = 1 then (if !p.degenerate then p.vertices else [])
        else if !q.degenerate then q.vertices else [] := by
      intro k p q
      split <;> rfl
    simp only [convertTopology, appendTriangle_eq, Nat.add_mod_right, hround]
    rfl
  | triangleFan | polygon =>
    simp only [drawnPrimitives, PrimitiveType.isList, Bool.false_or, fan_eq, true_or, or_true,
      flatMap_filter, List.flatMap_map]
    simp only [convertTopology, appendTriangle_eq]
    rfl
  | quadList | quadStrip =>
    simp only [drawnPrimitives, PrimitiveType.isList, Bool.false_or, guestPrimitives, quads_eq,
      quadStrip_eq, flatMap_filter, List.flatMap_assoc, List.flatMap_cons, List.flatMap_nil,
      List.append_nil]
    simp only [convertTopology, appendTriangle_eq]
    rfl

theorem convertTopology_of_not_converts {type : PrimitiveType} (h : type.converts = false)
    (v : List (BitVec 32)) (result : ProcessedPrimitiveBatch) :
    (convertTopology type v result).1 = false ∧
      (convertTopology type v result).2.valid = result.valid := by
  cases type <;> first | exact ⟨rfl, rfl⟩ | cases h

/-- What the types that support a reset have in common. -/
theorem supportsPrimitiveReset_spec {type : PrimitiveType}
    (h : supportsPrimitiveReset type = true) :
    type.converts = true ∧ type.isList = false ∧ type.isRectangle = false ∧
      drawnPrimitives type [] = [] := by
  cases type <;> first | exact ⟨rfl, rfl, rfl, rfl⟩ | cases h

/-- **The ranges between reset indices are converted one after the other.**  The
induction is on the rest of the input; `range` is what the range has so far. -/
theorem convertRanges_eq {type : PrimitiveType} (h : supportsPrimitiveReset type = true)
    (resetIndex : BitVec 32) (input range : List (BitVec 32)) (emitted : Bool)
    (result : ProcessedPrimitiveBatch) (hemitted : emitted = true →
      result.topology = type.hostTopology) :
    convertRanges type resetIndex input range emitted result = (true, { result with
      topology := type.hostTopology
      indices := result.indices ++
        (((input.splitOnPPrepend (· == resetIndex) range).flatMap
          (drawnPrimitives type)).flatMap vertices) }) := by
  obtain ⟨hconverts, hlist, hrectangle, hempty⟩ := supportsPrimitiveReset_spec h
  have hone : ∀ range result, convertTopology type range result = (true, { result with
      topology := type.hostTopology
      indices := result.indices ++ (drawnPrimitives type range).flatMap vertices }) := by
    intro range result
    rw [convertTopology_eq hconverts, hlist, hrectangle]
    rfl
  induction input generalizing range emitted result with
  | nil =>
    rw [convertRanges, List.splitOnPPrepend_nil, List.flatMap_singleton]
    split
    · next hrange =>
      subst hrange
      split
      · next hyes =>
        rw [List.reverse_nil, hempty, List.flatMap_nil, List.append_nil, ← hemitted hyes]
      · exact hone [] result
    · exact hone range.reverse result
  | cons index input ih =>
    rw [convertRanges]
    split
    · next hreset =>
      rw [List.splitOnPPrepend_cons_pos (p := (· == resetIndex)) (beq_iff_eq.2 hreset),
        List.flatMap_cons, List.splitOnP_eq_splitOnPPrepend]
      split
      · next hrange =>
        subst hrange
        rw [ih [] emitted result hemitted, List.reverse_nil, hempty, List.nil_append]
      · rw [hone]
        dsimp only
        rw [if_pos rfl, ih [] true _ fun _ => rfl]
        simp only [List.flatMap_append, List.append_assoc]
    · next hreset =>
      rw [List.splitOnPPrepend_cons_neg (p := (· == resetIndex)) (beq_eq_false_iff_ne.2 hreset)]
      exact ih (index :: range) emitted result hemitted

/-! ### The list that is left out -/

/-- The indices of an automatic draw. -/
abbrev autoIndices (n : ℕ) : List (BitVec 32) :=
  (List.range n).map (BitVec.ofNat 32)

theorem getD_autoIndices {n i : ℕ} (h : i < n) :
    (autoIndices n).getD i 0 = BitVec.ofNat 32 i := by
  simp [autoIndices, List.getElem?_range h]

/-- Three indices of an automatic draw are three vertices. -/
theorem length_appendTriangle_ofNat {i j k n : ℕ} (hn : n < 2 ^ 32)
    (h : (i < n ∧ j < n ∧ k < n) ∧ i ≠ j ∧ j ≠ k ∧ i ≠ k) :
    (appendTriangle ((autoIndices n).getD i 0) ((autoIndices n).getD j 0)
      ((autoIndices n).getD k 0)).length = 3 := by
  obtain ⟨⟨hi, hj, hk⟩, hij, hjk, hik⟩ := h
  have hne : ∀ a b : ℕ, a < n → b < n → a ≠ b →
      BitVec.ofNat 32 a ≠ BitVec.ofNat 32 b := by
    intro a b ha hb hab heq
    have hnat := congrArg BitVec.toNat heq
    rw [BitVec.toNat_ofNat, BitVec.toNat_ofNat, Nat.mod_eq_of_lt (by omega),
      Nat.mod_eq_of_lt (by omega)] at hnat
    exact hab hnat
  rw [getD_autoIndices hi, getD_autoIndices hj, getD_autoIndices hk, appendTriangle,
    if_neg fun h => h.elim (hne i j hi hj hij) fun h =>
      h.elim (hne j k hj hk hjk) (hne i k hi hk hik)]
  rfl

/-- A loop that appends as much each time. -/
theorem length_flatMap_range {n c : ℕ} {f : ℕ → List (BitVec 32)}
    (h : ∀ k < n, (f k).length = c) : ((List.range n).flatMap f).length = n * c := by
  rw [List.length_flatMap, List.map_congr_left fun k hk => h k (List.mem_range.1 hk),
    List.map_const', List.length_range, List.sum_replicate_nat]

/-- The draw whose list is left out although it does not count up. -/
def DropsQuads (draw : DrawPacket) : Prop :=
  draw.source = .autoIndex ∧ PrimitiveType.ofCode draw.primitiveType = .quadList ∧
    draw.indexCount = 6

instance (draw : DrawPacket) : Decidable (DropsQuads draw) :=
  inferInstanceAs (Decidable (_ ∧ _))

/-- **A list as long as an automatic draw counts up**, but for the quad and a half. -/
theorem convertTopology_autoIndices {type : PrimitiveType} {n : ℕ} (hn : n < 2 ^ 32)
    (hconverts : type.converts = true) (hquads : ¬(type = .quadList ∧ n = 6))
    (hlength : (convertTopology type (autoIndices n) {}).2.indices.length = n) :
    (convertTopology type (autoIndices n) {}).2.indices = autoIndices n := by
  have hsize : (autoIndices n).length = n := by rw [List.length_map, List.length_range]
  cases type with
  | none | triangleWithWFlags | unnamed => cases hconverts
  | pointList => rfl
  | lineList | triangleList | rectangleList | copyRectList0 | copyRectList1 | copyRectList2
  | copyRectList3 | fillRectList =>
    simp only [convertTopology, List.length_take, hsize] at hlength ⊢
    exact List.take_of_length_le (by rw [hsize]; omega)
  | lineStrip | twoDLineStrip =>
    simp only [convertTopology, hsize, List.nil_append] at hlength ⊢
    rw [length_flatMap_range (c := 2) fun k _ => rfl] at hlength
    obtain rfl | rfl : n = 0 ∨ n = 2 := by omega
    · rfl
    · rfl
  | lineLoop =>
    simp only [convertTopology, hsize, List.nil_append, List.length_append] at hlength ⊢
    rw [length_flatMap_range (c := 2) fun k _ => rfl] at hlength
    obtain rfl : n = 0 := by
      split at hlength
      · rw [List.length_cons, List.length_singleton] at hlength
        omega
      · rw [List.length_nil] at hlength
        omega
    rfl
  | triangleStrip | twoDTriStrip =>
    simp only [convertTopology, hsize, List.nil_append] at hlength ⊢
    rw [length_flatMap_range (c := 3) fun k hk => ?_] at hlength
    · obtain rfl | rfl : n = 0 ∨ n = 3 := by omega
      · rfl
      · rfl
    · split <;> exact length_appendTriangle_ofNat hn (by omega)
  | triangleFan | polygon =>
    simp only [convertTopology, hsize, List.nil_append] at hlength ⊢
    rw [length_flatMap_range (c := 3) fun k hk => length_appendTriangle_ofNat hn (by omega)]
      at hlength
    obtain rfl | rfl : n = 0 ∨ n = 3 := by omega
    · rfl
    · rfl
  | quadList =>
    simp only [convertTopology, hsize, List.nil_append] at hlength ⊢
    rw [length_flatMap_range (c := 6) fun k hk => ?_] at hlength
    · obtain rfl : n = 0 := by
        have hsix : n ≠ 6 := fun h => hquads ⟨rfl, h⟩
        omega
      rfl
    · rw [List.length_append, length_appendTriangle_ofNat hn (by omega),
        length_appendTriangle_ofNat hn (by omega)]
  | quadStrip =>
    simp only [convertTopology, hsize, List.nil_append] at hlength ⊢
    rw [length_flatMap_range (c := 6) fun k hk => ?_] at hlength
    · obtain rfl : n = 0 := by omega
      rfl
    · rw [List.length_append, length_appendTriangle_ofNat hn (by omega),
        length_appendTriangle_ofNat hn (by omega)]

/-! ### Memory -/

/-- An index inside of memory is read. -/
theorem exists_loadIndex {memory : List (BitVec 8)} {data i : ℕ} {format : IndexFormat}
    (endian : Endian) (h : data + (i + 1) * format.sizeBytes ≤ memory.length) :
    ∃ index, loadIndex memory data format endian i = some index := by
  cases format <;> simp only [IndexFormat.sizeBytes] at h
  · rw [loadIndex, List.getElem?_eq_getElem (by omega), List.getElem?_eq_getElem (by omega)]
    exact ⟨_, rfl⟩
  · rw [loadIndex, List.getElem?_eq_getElem (by omega), List.getElem?_eq_getElem (by omega),
      List.getElem?_eq_getElem (by omega), List.getElem?_eq_getElem (by omega)]
    exact ⟨_, rfl⟩

theorem exists_mapM {α β : Type} {f : α → Option β} {l : List α}
    (h : ∀ a ∈ l, ∃ b, f a = some b) : ∃ bs, l.mapM f = some bs := by
  induction l with
  | nil => exact ⟨[], rfl⟩
  | cons a l ih =>
    obtain ⟨b, hb⟩ := h a List.mem_cons_self
    obtain ⟨bs, hbs⟩ := ih fun a' ha' => h a' (List.mem_cons_of_mem a ha')
    exact ⟨b :: bs, by simp [hb, hbs]⟩

/-- **No draw reads outside of memory.** -/
theorem exists_decodedIndices (draw : DrawPacket) (memory : List (BitVec 8))
    (physicalBase : ℕ) : ∃ decoded, decodedIndices draw memory physicalBase = some decoded := by
  unfold decodedIndices
  split
  · exact ⟨_, rfl⟩
  · split
    · exact ⟨_, rfl⟩
    · next buffer hbuffer =>
      dsimp only
      split
      · exact ⟨_, rfl⟩
      · next hinside =>
        rw [not_or, Nat.not_lt, Nat.not_lt] at hinside
        obtain ⟨indices, hindices⟩ := exists_mapM
          (f := loadIndex memory (buffer.physicalAddress - physicalBase) buffer.format
            buffer.endian)
          (l := List.range (min draw.indexCount (buffer.lengthBytes / buffer.format.sizeBytes)))
          fun i hi => exists_loadIndex buffer.endian (by
            have hi : i + 1 ≤ _ := List.mem_range.1 hi
            have hbytes := Nat.mul_le_mul_right buffer.format.sizeBytes hi
            omega)
        exact ⟨_, by rw [hindices]; rfl⟩
  · exact ⟨_, rfl⟩
  · exact ⟨_, rfl⟩

/-! ### The draw -/

/-- The batch draws what the draw shows, and says whether its triangles are corners
of rectangles. -/
structure DrawsGuest (draw : DrawPacket) (options : PrimitiveProcessingOptions)
    (v : List (BitVec 32)) (batch : ProcessedPrimitiveBatch) : Prop where
  primitives : batch.primitives = guestDraw draw options v
  rectangles : batch.requiresRectangleExpansion =
    (PrimitiveType.ofCode draw.primitiveType).isRectangle

/-- The memory is read inside, and a valid batch draws what the draw shows. -/
def ConvertsExactly (draw : DrawPacket) (memory : List (BitVec 8))
    (options : PrimitiveProcessingOptions) (physicalBase : ℕ) : Prop :=
  ∃ batch, processPrimitives draw memory options physicalBase = some batch ∧
    (batch.valid = true → ∃ v, decodedIndices draw memory physicalBase = some (.ok v) ∧
      DrawsGuest draw options v batch)

/-- What is converted, before it is known whether the list is left out. -/
theorem convert_spec (draw : DrawPacket) (options : PrimitiveProcessingOptions)
    (v : List (BitVec 32)) (hconverts : (PrimitiveType.ofCode draw.primitiveType).converts = true) :
    (match resetIndexOf draw options with
      | some resetIndex =>
          convertWithPrimitiveReset (.ofCode draw.primitiveType) v resetIndex {}
      | none => convertTopology (.ofCode draw.primitiveType) v {}) =
      (true, { topology := (PrimitiveType.ofCode draw.primitiveType).hostTopology
               requiresRectangleExpansion :=
                 (PrimitiveType.ofCode draw.primitiveType).isRectangle
               indices := (guestDraw draw options v).flatMap vertices }) := by
  unfold guestDraw
  cases hreset : resetIndexOf draw options with
  | none =>
    dsimp only
    rw [convertTopology_eq hconverts, Bool.or_false, ite_self, List.nil_append]
  | some resetIndex =>
    dsimp only
    have hsupports : supportsPrimitiveReset (.ofCode draw.primitiveType) = true := by
      unfold resetIndexOf at hreset
      dsimp only at hreset
      split at hreset
      · next h => exact h.2.2.1
      · cases hreset
    obtain ⟨-, -, hrectangle, -⟩ := supportsPrimitiveReset_spec hsupports
    rw [convertWithPrimitiveReset, convertRanges_eq hsupports resetIndex v [] false {} nofun,
      hrectangle]
    rfl

/-- The other types are refused. -/
theorem resetIndexOf_of_not_converts {draw : DrawPacket} (options : PrimitiveProcessingOptions)
    (h : (PrimitiveType.ofCode draw.primitiveType).converts = false) :
    resetIndexOf draw options = none := by
  refine if_neg fun hreset => ?_
  rw [(supportsPrimitiveReset_spec hreset.2.2.1).1] at h
  cases h

/-- All primitives of a draw are of the host topology of its type. -/
theorem topology_of_mem_guestDraw {draw : DrawPacket} {options : PrimitiveProcessingOptions}
    {v : List (BitVec 32)} {p : Primitive (BitVec 32)} (h : p ∈ guestDraw draw options v) :
    p.topology = (PrimitiveType.ofCode draw.primitiveType).hostTopology := by
  unfold guestDraw at h
  split at h
  · obtain ⟨range, -, hp⟩ := List.mem_flatMap.1 h
    exact topology_of_mem_guestPrimitives (List.mem_filter.1 hp).1
  · exact topology_of_mem_guestPrimitives (List.mem_filter.1 h).1

/-- The draw whose list is left out although it does not count up draws another
triangle. -/
theorem DropsQuads.not_convertsExactly {draw : DrawPacket} (h : DropsQuads draw)
    (memory : List (BitVec 8)) (options : PrimitiveProcessingOptions) (physicalBase : ℕ) :
    ¬ConvertsExactly draw memory options physicalBase := by
  obtain ⟨hsource, htype, hsix⟩ := h
  rintro ⟨batch, hbatch, hdraws⟩
  have hreset : resetIndexOf draw options = none := if_neg fun h => h.2.1 hsource
  have hdecoded : decodedIndices draw memory physicalBase = some (.ok (autoIndices 6)) := by
    rw [decodedIndices, hsource, hsix]
  rw [processPrimitives, hdecoded, Option.map_some, Option.some_inj] at hbatch
  dsimp only at hbatch
  rw [hreset, htype, hsource, hsix] at hbatch
  subst hbatch
  obtain ⟨v, hv, hprimitives, -⟩ := hdraws rfl
  rw [hdecoded, Option.some_inj, Except.ok.injEq] at hv
  subst hv
  rw [guestDraw, hreset, htype] at hprimitives
  exact absurd hprimitives (by decide)

/-- **When the conversion is exact.**  The primitives of a valid batch are those of
the draw, for every draw but the automatic one of a quad and a half. -/
theorem convertsExactly_iff (draw : DrawPacket) (memory : List (BitVec 8))
    (options : PrimitiveProcessingOptions) (physicalBase : ℕ)
    (hcount : draw.indexCount < 2 ^ 32) :
    ConvertsExactly draw memory options physicalBase ↔ ¬DropsQuads draw := by
  refine ⟨fun h hdrops => hdrops.not_convertsExactly memory options physicalBase h,
    fun hdrops => ?_⟩
  obtain ⟨decoded, hdecoded⟩ := exists_decodedIndices draw memory physicalBase
  rw [ConvertsExactly, processPrimitives, hdecoded, Option.map_some]
  refine ⟨_, rfl, fun hvalid => ?_⟩
  cases decoded with
  | error error => cases hvalid
  | ok v =>
    refine ⟨v, rfl, ?_⟩
    dsimp only at hvalid ⊢
    cases hconverts : (PrimitiveType.ofCode draw.primitiveType).converts with
    | false =>
      obtain ⟨hrefused, hinvalid⟩ := convertTopology_of_not_converts hconverts v {}
      rw [resetIndexOf_of_not_converts options hconverts] at hvalid
      dsimp only at hvalid
      rw [hrefused, if_neg Bool.false_ne_true, hinvalid] at hvalid
      cases hvalid
    | true =>
      have hconverted := convert_spec draw options v hconverts
      rw [hconverted]
      dsimp only
      rw [if_pos rfl]
      refine ⟨?_, rfl⟩
      have hhost := hostPrimitives_vertices
        fun p (hp : p ∈ guestDraw draw options v) => topology_of_mem_guestDraw hp
      rw [ProcessedPrimitiveBatch.primitives]
      split
      · exact hhost
      · next hlist =>
        dsimp only at hlist ⊢
        rw [decide_eq_true_iff, not_or, not_not, not_not] at hlist
        obtain ⟨hsource, hlength⟩ := hlist
        have hreset : resetIndexOf draw options = none := if_neg fun h => h.2.1 hsource
        have hauto : v = autoIndices draw.indexCount := by
          rw [decodedIndices, hsource] at hdecoded
          exact (Except.ok.inj (Option.some.inj hdecoded)).symm
        rw [hreset] at hconverted
        dsimp only at hconverted
        have hcounts := convertTopology_autoIndices hcount hconverts
          (fun h => hdrops ⟨hsource, h⟩) (by rw [← hauto, hconverted]; exact hlength)
        rw [← hauto, hconverted] at hcounts
        dsimp only at hcounts
        rw [hlength, Nat.mod_eq_of_lt hcount, ← hhost, hcounts, hauto]

/-- An automatic draw. -/
def autoDraw (primitiveType indexCount : ℕ) : DrawPacket where
  opcode := .drawIndx2
  predicate := false
  registerGeneration := 0
  primitiveType := primitiveType
  source := .autoIndex
  majorMode := 0
  explicitMajorMode := false
  indexFormat := .uint16
  notEop := false
  binned := false
  indexCount := indexCount
  vizQueryCondition := 0
  indexBuffer := none
  binning := none
  vertexShader := .none
  pixelShader := .none
  immediateIndexDwords := []
  rawPayload := []

/-- A line loop of three vertices is drawn with all its lines. -/
theorem convertsExactly_lineLoop : ConvertsExactly (autoDraw 0x0C 3) [] {} 0 :=
  (convertsExactly_iff (autoDraw 0x0C 3) [] {} 0 (by decide)).2 (by decide)

/-- The second triangle of the quad is lost: the host draws the three vertices after
the first one. -/
theorem quadList_six_vertices :
    ¬ConvertsExactly (autoDraw 0x0D 6) [] {} 0 ∧
      guestDraw (autoDraw 0x0D 6) {} (autoIndices 6) = [triangle 0 1 2, triangle 0 2 3] ∧
      (processPrimitives (autoDraw 0x0D 6) [] {} 0).map (·.primitives) =
        some [triangle 0 1 2, triangle 3 4 5] :=
  ⟨DropsQuads.not_convertsExactly (by decide) [] {} 0, by decide, by decide⟩

end Gpu
end XenonRecomp
