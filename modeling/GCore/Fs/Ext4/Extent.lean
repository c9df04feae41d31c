import GCore.Fs.Ext4.BlockAlloc
import GCore.Library.Bisect

namespace GCore.Fs.Ext4

open Library Function

/-!
# Extent trees

A node of an extent tree has a header and entries of twelve bytes.  The entries of a
leaf are extents, and those of the other nodes are indices; both begin with a number of
a logical block.  An entry is kept here with the fields of an extent, and the fields of
an index are read from the same bytes.

The root is in the inode and has four entries.  All other nodes fill a block of the
device, with 340 entries.  Any block can be read as a node, as `get_extent_from_node`
does with a block of data.  The blocks with bitmaps, which the allocator writes, are kept
apart from these.

`insert_extent` puts a new extent behind the one that `find_extent` has found.  It does
not move the entries that follow.  If the leaf is full, then the tree grows at the root,
and `insert_extent` calls itself; so it has a bound on the calls here.
-/

/-- `EXT_INIT_MAX_LEN`; longer counts belong to unwritten extents. -/
def extInitMaxLen : Nat := 32768

structure Ext4Extent where
  firstBlock : Nat
  blockCount : Nat
  startHi : Nat
  startLo : Nat
  deriving DecidableEq, Repr

namespace Ext4Extent

/-- Twelve zero bytes. -/
def zero : Ext4Extent := ⟨0, 0, 0, 0⟩

variable (ext : Ext4Extent)

def getPblock : Nat := ext.startLo ||| ext.startHi * 2 ^ 32

def isUnwritten : Bool := extInitMaxLen < ext.blockCount

def getActualLen : Nat := if ext.isUnwritten then ext.blockCount - extInitMaxLen else ext.blockCount

def setActualLen (len : Nat) : Ext4Extent := { ext with blockCount := len }

def markUnwritten : Ext4Extent := { ext with blockCount := ext.blockCount ||| extInitMaxLen }

/-- `leaf_lo` of an index. -/
def leafLo : Nat := ext.blockCount + ext.startHi * 2 ^ 16

/-- `store_pblock` of an index; the padding stays as it is. -/
def storeLeaf (pblock : Nat) : Ext4Extent :=
  { ext with
    blockCount := pblock % 2 ^ 16
    startHi := pblock / 2 ^ 16 % 2 ^ 16
    startLo := ext.startLo / 2 ^ 16 * 2 ^ 16 + pblock / 2 ^ 32 % 2 ^ 16 }

/-- The physical block that `find_extent` reports for a logical block. -/
def pblockAt (lblock : Nat) : Nat := (lblock + 2 ^ 64 - ext.firstBlock + ext.getPblock) % 2 ^ 64

/-- The extent with the length of another one added, as in `merge_extent`. -/
def extend (right : Ext4Extent) : Ext4Extent :=
  let joined := ext.setActualLen ((ext.getActualLen + right.getActualLen) % 2 ^ 16)
  if ext.isUnwritten then joined.markUnwritten else joined

end Ext4Extent

/-- The sum of the lengths has sixteen bits. -/
def canMerge (ex1 ex2 : Ext4Extent) : Bool :=
  if ex1.isUnwritten ≠ ex2.isUnwritten then false
  else if (ex1.firstBlock + ex1.getActualLen) % 2 ^ 32 ≠ ex2.firstBlock then false
  else if extInitMaxLen < (ex1.getActualLen + ex2.getActualLen) % 2 ^ 16 then false
  else ex1.getPblock + ex1.getActualLen = ex2.getPblock

structure Ext4ExtentHeader where
  entriesCount : Nat
  maxEntriesCount : Nat
  depth : Nat
  deriving DecidableEq, Repr

structure ExtentNode where
  header : Ext4ExtentHeader
  entries : Nat -> Ext4Extent

namespace ExtentNode

variable (node : ExtentNode)

/-- The search begins behind the first extent, which is the answer if all others are too
large.  For an empty node it is what stands at the first place. -/
def binsearchExtent (lblock : Nat) : Option (Ext4Extent × Nat) :=
  if node.header.entriesCount = 0 then some (node.entries 0, 0)
  else
    let l := bisect (fun m => decide ((node.entries m).firstBlock <= lblock)) node.header.entriesCount 1
      (node.header.entriesCount - 1)
    some (node.entries (l - 1), l - 1)

/-- Only in the root the search begins behind the first index. -/
def binsearchIdx (isRoot : Bool) (lblock : Nat) : Option Nat :=
  if node.header.entriesCount = 0 then none
  else
    let l := bisect (fun m => decide ((node.entries m).firstBlock <= lblock)) node.header.entriesCount
      (if isRoot then 1 else 0) (node.header.entriesCount - 1)
    if l = 0 then none else some (l - 1)

def setEntry (pos : Nat) (ext : Ext4Extent) : ExtentNode :=
  { node with entries := update node.entries pos ext }

/-- Write an entry and count it. -/
def addEntry (pos : Nat) (ext : Ext4Extent) : ExtentNode :=
  { header := { node.header with entriesCount := (node.header.entriesCount + 1) % 2 ^ 16 }
    entries := update node.entries pos ext }

end ExtentNode

structure ExtentPathNode where
  header : Ext4ExtentHeader
  index : Option Ext4Extent
  extent : Option Ext4Extent
  position : Nat
  pblock : Nat
  pblockOfNode : Nat

structure SearchPath where
  depth : Nat
  maxdepth : Nat
  path : List ExtentPathNode

/-- The inode of a file with the root of its tree, the blocks of the device as nodes, and
the file system for the allocation of blocks. -/
structure ExtentFile where
  fs : Ext4FileSystem
  nodes : Nat -> ExtentNode
  inode : Ext4InodeRef
  root : ExtentNode

namespace ExtentFile

variable (file : ExtentFile)

/-- The way down through the indices.  A block without a fitting index is a panic. -/
def walk (nodes : Nat -> ExtentNode) (lblock : Nat) :
    Nat -> ExtentNode -> Bool -> Nat -> SearchPath -> Option (ExtentNode × Nat × SearchPath)
  | 0, node, _, pblockOfNode, path => some (node, pblockOfNode, path)
  | depth + 1, node, isRoot, pblockOfNode, path =>
    (node.binsearchIdx isRoot lblock).bind (fun pos =>
      let index := node.entries pos
      let step : ExtentPathNode :=
        { header := node.header, index := some index, extent := none, position := pos, pblock := index.leafLo,
          pblockOfNode := pblockOfNode }
      walk nodes lblock depth (nodes index.leafLo) false index.leafLo
        { path with depth := path.depth + 1, path := path.path ++ [step] })

def findExtent (lblock : Nat) : Option SearchPath :=
  (walk file.nodes lblock file.root.header.depth file.root true 0 ⟨0, 4, []⟩).bind (fun (node, pblockOfNode, path) =>
    match node.binsearchExtent lblock with
    | some (extent, pos) =>
      let step : ExtentPathNode :=
        { header := node.header, index := none, extent := some extent, position := pos,
          pblock := extent.pblockAt lblock, pblockOfNode := pblockOfNode }
      some { path with maxdepth := node.header.depth, path := path.path ++ [step] }
    | none =>
      let step : ExtentPathNode :=
        { header := node.header, index := none, extent := none, position := 0, pblock := 0,
          pblockOfNode := pblockOfNode }
      some { path with path := path.path ++ [step] })

/-- The block is read for whatever extent has been found. -/
def getPblockIdx (lblock : Nat) : Option Nat :=
  (file.findExtent lblock).bind (fun path => path.path.getLast?.map ExtentPathNode.pblock)

/-- It is the block of data that is read as a node. -/
def getExtentFromNode (node : ExtentPathNode) (pos : Nat) : Ext4Extent := (file.nodes node.pblock).entries pos

/-- The number of the device's block for `Block::load_offset`. -/
def deviceBlock (block : Nat) : Nat := block * file.fs.blockSize / blockSz

def updateNode (block : Nat) (change : ExtentNode -> ExtentNode) : ExtentFile :=
  { file with nodes := update file.nodes block (change (file.nodes block)) }

/-- The left extent becomes longer, and so does the entry at the position of the path, if the
node is not the root. -/
def mergeExtent (node : ExtentPathNode) (left right : Ext4Extent) : Ext4Extent × ExtentFile :=
  (left.extend right,
    if 4 < node.header.maxEntriesCount then
      file.updateNode (file.deviceBlock node.pblockOfNode) (fun leaf =>
        leaf.setEntry node.position ((leaf.entries node.position).extend right))
    else file)

def insertNewExtent (depth : Nat) (node : ExtentPathNode) (newExtent : Ext4Extent) : ExtentFile :=
  if depth = 0 then
    if node.header.entriesCount = 0 then { file with root := file.root.addEntry node.position newExtent }
    else { file with root := file.root.addEntry (node.position + 1) newExtent }
  else
    file.updateNode (file.deviceBlock node.pblockOfNode) (fun leaf => leaf.addEntry (node.position + 1) newExtent)

/-- The three attempts to merge the new extent with an extent that is there. -/
def tryMerge (node : ExtentPathNode) (newex : Ext4Extent) : Option ExtentFile :=
  node.extent.bind (fun ex =>
    let pos := node.position
    if canMerge ex newex then
      let (ex, file) := file.mergeExtent node ex newex
      some (if node.pblockOfNode = 0 then { file with root := file.root.setEntry pos ex } else file)
    else if pos < node.header.entriesCount - 1 /\ (ex.firstBlock + ex.blockCount) % 2 ^ 32 < newex.firstBlock /\
        canMerge (file.getExtentFromNode node (pos + 1)) newex then
      some (file.mergeExtent node newex (file.getExtentFromNode node (pos + 1))).2
    else if 0 < pos /\ (newex.firstBlock + newex.blockCount) % 2 ^ 32 < ex.firstBlock /\
        canMerge (file.getExtentFromNode node (pos - 1)) newex then
      some (file.mergeExtent node (file.getExtentFromNode node (pos - 1)) newex).2
    else none)

/-- The root moves into a new block, and becomes an index with one entry. -/
def extGrowIndepth : Option (Except Int Unit × ExtentFile) :=
  (file.fs.ballocAllocBlock file.inode none).map (fun (allocated, fs, inode) =>
    match allocated with
    | .error code => (.error code, { file with fs := fs, inode := inode })
    | .ok newBlock =>
      let space := (file.fs.blockSize - 12) / 12
      let moved : ExtentNode :=
        { header := { file.root.header with maxEntriesCount := space % 2 ^ 16 }
          entries := fun pos => if pos < 4 then file.root.entries pos else .zero }
      let root : ExtentNode :=
        { header := { file.root.header with entriesCount := 1, depth := (file.root.header.depth + 1) % 2 ^ 16 }
          entries := update file.root.entries 0 ((file.root.entries 0).storeLeaf newBlock) }
      let file := { file with fs := fs, inode := inode, root := root }
      (.ok (), file.updateNode (file.deviceBlock newBlock) (fun _ => moved)))

/-- With a bound on the calls; `some none` means that it has not returned yet.  Whether the
tree could grow is not looked at. -/
def insertExtent : Nat -> ExtentFile -> Ext4Extent -> Option (Option (Except Int Unit × ExtentFile))
  | 0, _, _ => some none
  | calls + 1, file, newex => do
      let searchPath <- file.findExtent newex.firstBlock
      let node <- searchPath.path[searchPath.depth]?
      if node.header.entriesCount = 0 then some (some (.ok (), file.insertNewExtent searchPath.depth node newex))
      else
        match file.tryMerge node newex with
        | some file => some (some (.ok (), file))
        | none =>
          if node.header.entriesCount < node.header.maxEntriesCount then
            some (some (.ok (), file.insertNewExtent searchPath.depth node newex))
          else do
            let (_, file) <- file.extGrowIndepth
            insertExtent calls file newex

end ExtentFile

end GCore.Fs.Ext4
