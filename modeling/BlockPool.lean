import BlockPool.Arena.Basic
import BlockPool.Arena.Cache
import BlockPool.Arena.Counts
import BlockPool.Arena.Metrics
import BlockPool.Buffer.Allocator
import BlockPool.Buffer.Basic
import BlockPool.Buffer.Error
import BlockPool.Buffer.Source
import BlockPool.Chunk.Band
import BlockPool.Chunk.BandLists
import BlockPool.Chunk.Basic
import BlockPool.Chunk.Block
import BlockPool.Chunk.Buddy
import BlockPool.Chunk.Error
import BlockPool.Chunk.Geometry
import BlockPool.Chunk.Handle
import BlockPool.Chunk.Subpage
import BlockPool.Config.Pool
import BlockPool.Config.Recycling
import BlockPool.Config.Setting
import BlockPool.Memory.Contents
import BlockPool.Memory.Extent
import BlockPool.Memory.Page
import BlockPool.Memory.Provider
import BlockPool.Memory.Region
import BlockPool.Proofs.Arena.Alignment
import BlockPool.Proofs.Arena.Answers
import BlockPool.Proofs.Arena.Bookkeeping
import BlockPool.Proofs.Arena.Cache
import BlockPool.Proofs.Arena.Exchange
import BlockPool.Proofs.Arena.Handles
import BlockPool.Proofs.Arena.Idle
import BlockPool.Proofs.Arena.Need
import BlockPool.Proofs.Arena.Orderly
import BlockPool.Proofs.Arena.Owed
import BlockPool.Proofs.Arena.Packed
import BlockPool.Proofs.Arena.Parked
import BlockPool.Proofs.Arena.Recovered
import BlockPool.Proofs.Arena.Run
import BlockPool.Proofs.Arena.Session
import BlockPool.Proofs.Arena.Tally
import BlockPool.Proofs.Arena.Trim
import BlockPool.Proofs.Buffer.Acts
import BlockPool.Proofs.Buffer.Allocator
import BlockPool.Proofs.Buffer.Basic
import BlockPool.Proofs.Buffer.Clients
import BlockPool.Proofs.Buffer.Counted
import BlockPool.Proofs.Buffer.Life
import BlockPool.Proofs.Buffer.Noting
import BlockPool.Proofs.Buffer.Parked
import BlockPool.Proofs.Buffer.Resize
import BlockPool.Proofs.Buffer.Resizing
import BlockPool.Proofs.Buffer.Source
import BlockPool.Proofs.Chunk.Available
import BlockPool.Proofs.Chunk.BandLists
import BlockPool.Proofs.Chunk.Buddy
import BlockPool.Proofs.Chunk.Geometry
import BlockPool.Proofs.Chunk.Grant
import BlockPool.Proofs.Chunk.History
import BlockPool.Proofs.Chunk.Leftmost
import BlockPool.Proofs.Chunk.Live
import BlockPool.Proofs.Chunk.Pools
import BlockPool.Proofs.Chunk.Regain
import BlockPool.Proofs.Chunk.Sizes
import BlockPool.Proofs.Chunk.Slots
import BlockPool.Proofs.Chunk.Sorted
import BlockPool.Proofs.Chunk.Subpage
import BlockPool.Proofs.Chunk.Tidy
import BlockPool.Proofs.Chunk.Windows
import BlockPool.Proofs.Config.Environment
import BlockPool.Proofs.Config.Pool
import BlockPool.Proofs.Config.Setting
import BlockPool.Proofs.Recycling.Bounds
import BlockPool.Proofs.Recycling.Budget
import BlockPool.Proofs.Recycling.Custody
import BlockPool.Proofs.Recycling.Drained
import BlockPool.Proofs.Recycling.Filter
import BlockPool.Proofs.Recycling.Home
import BlockPool.Proofs.Recycling.Homes
import BlockPool.Proofs.Recycling.Lent
import BlockPool.Proofs.Recycling.Limit
import BlockPool.Proofs.Recycling.Links
import BlockPool.Proofs.Recycling.Offer
import BlockPool.Proofs.Recycling.Passage
import BlockPool.Proofs.Recycling.Queue
import BlockPool.Proofs.Recycling.Retired
import BlockPool.Proofs.Recycling.Run
import BlockPool.Proofs.Recycling.Stack
import BlockPool.Proofs.Recycling.Tokens
import BlockPool.Proofs.Recycling.Trials
import BlockPool.Proofs.Recycling.Usage
import BlockPool.Proofs.Recycling.Visible
import BlockPool.Proofs.Recycling.Waiting
import BlockPool.Proofs.Rounding
import BlockPool.Proofs.Store.Bitmap
import BlockPool.Proofs.Store.Chain
import BlockPool.Proofs.Store.Entries
import BlockPool.Proofs.Store.Fifo
import BlockPool.Proofs.Store.IndexSet
import BlockPool.Proofs.Store.Keyed
import BlockPool.Proofs.Store.Nodes
import BlockPool.Proofs.Store.Search
import BlockPool.Proofs.Store.Strands
import BlockPool.Proofs.Thread.Cells
import BlockPool.Proofs.Total
import BlockPool.Recycling.Basic
import BlockPool.Recycling.Home
import BlockPool.Recycling.Item
import BlockPool.Recycling.Queue
import BlockPool.Recycling.Stack
import BlockPool.Store.Bitmap
import BlockPool.Store.Chain
import BlockPool.Store.Ring
import BlockPool.Store.Slab
import BlockPool.Text.Category
import BlockPool.Text.Hex
import BlockPool.Text.Quoted
import BlockPool.Thread.Caller
import BlockPool.Thread.Cells
import BlockPool.Thread.Lazy
import BlockPool.Thread.Liveness
import BlockPool.Total
import BlockPool.Word
