import RowMapper.Engine
import RowMapper.Entity.Relation
import RowMapper.Finder.Query
import RowMapper.Opening
import RowMapper.Script.Run
import RowMapper.Shop.Service
import RowMapper.Sql.Statement
import RowMapper.TableDefinition
import RowMapper.Proofs.Engine.Agreement
import RowMapper.Proofs.Engine.Bracket
import RowMapper.Proofs.Engine.Call
import RowMapper.Proofs.Entity.Call
import RowMapper.Proofs.Entity.Found
import RowMapper.Proofs.Entity.Linking
import RowMapper.Proofs.Entity.Table
import RowMapper.Proofs.Entity.WriteBack
import RowMapper.Proofs.Filter.Compiled
import RowMapper.Proofs.Script.Block
import RowMapper.Proofs.Script.Lifecycle
import RowMapper.Proofs.Script.Refusal
import RowMapper.Proofs.Script.Resolution
import RowMapper.Proofs.Script.Statement
import RowMapper.Proofs.Script.Visit
import RowMapper.Proofs.Script.Write
import RowMapper.Proofs.Shelf
import RowMapper.Proofs.Shop.Overwriting
import RowMapper.Proofs.Shop.Success
import RowMapper.Proofs.Sql.Row
import RowMapper.Proofs.Where.Binding
import RowMapper.Proofs.Where.Refusal
import RowMapper.Proofs.World.Call
import RowMapper.Proofs.World.Definition
import RowMapper.Proofs.World.Finalization
import RowMapper.Proofs.World.Holding
import RowMapper.Proofs.World.Interference
import RowMapper.Proofs.Entity.Fresh
import RowMapper.Proofs.Json.Reader
import RowMapper.Proofs.Shop.Listing
import RowMapper.Proofs.Model.Reference
import RowMapper.Proofs.World.Settling
import RowMapper.Proofs.World.Unresolved
import RowMapper.Proofs.Shop.Creation
import RowMapper.Proofs.Shop.Completion
import RowMapper.Proofs.Entity.Refinding
import RowMapper.Proofs.Where.Pinning
import RowMapper.Proofs.Entity.Sharing
import RowMapper.Proofs.Entity.Attachment
import RowMapper.Proofs.Entity.FailedLink
import RowMapper.Proofs.Entity.Deletion
import RowMapper.Proofs.Entity.FailedSave
import RowMapper.Proofs.Entity.Joining
import RowMapper.Proofs.Entity.Membership
import RowMapper.Proofs.Finder.Options
import RowMapper.Proofs.Finder.Paging
import RowMapper.Proofs.Sql.ReadBack
import RowMapper.Proofs.Entity.Belonging
import RowMapper.Proofs.Filter.Bracketing
import RowMapper.Proofs.Where.Membership
import RowMapper.Proofs.Where.Negation
import RowMapper.Proofs.Sql.Clause
import RowMapper.Proofs.Sql.Names
import RowMapper.Proofs.World.Order
