import RowMapper.TableDefinition
import RowMapper.World.Definition

/-!
# The catalogue of the shop

Four models: categories, products, tags, and the table that joins products with tags.  A product may
belong to a category and have any number of tags.
-/
namespace RowMapper.Shop

open Model (Association AssociationKind AttributeBody Column ColumnType Definition Registry)

/-- The module of the models. -/
def home : String := "models"

/-- A column in the body of a model. -/
def column (name spelling : String) (type : ColumnType) (nullable unique : Bool)
    (absent : Option Value) : String × AttributeBody :=
  (name, .column { name, spelling, type, nullable, unique, absent := absent.map .fixed })

/-- A column of texts. -/
def textColumn (name : String) (nullable unique : Bool) : String × AttributeBody :=
  column name "Text" .text nullable unique none

/-- A column of integers. -/
def numberColumn (name : String) (nullable : Bool) (absent : Option Value) :
    String × AttributeBody :=
  column name "Number" .integer nullable false absent

/-- An association with a model that is given by its name. -/
def association (name : String) (kind : AssociationKind) (target foreignKey : String) :
    String × AttributeBody :=
  (name, .association { kind, target := .str target, foreignKey := .str foreignKey })

/-- Categories of products. -/
def category : Definition where
  name := "Category"
  key := "Category"
  home := home
  settings := some [("table_name", .str "categories")]
  attributes := [
    textColumn "name" false true,
    textColumn "description" true false,
    association "products" .hasMany "Product" "category_id"]

/-- Products. -/
def product : Definition where
  name := "Product"
  key := "Product"
  home := home
  attributes := [
    textColumn "name" false false,
    column "price" "Real" .real true false (some (.float (Binary64.zero false))),
    numberColumn "stock" true (some (.int 0)),
    numberColumn "category_id" true none,
    association "category" (.belongsTo Model.defaultKey) "Category" "category_id",
    association "tags" (.belongsToMany (.str "ProductTag") (.str "tag_id") Model.defaultKey) "Tag"
      "product_id"]

/-- Tags. -/
def tag : Definition where
  name := "Tag"
  key := "Tag"
  home := home
  attributes := [textColumn "label" false true]

/-- Which product has which tag. -/
def productTag : Definition where
  name := "ProductTag"
  key := "ProductTag"
  home := home
  settings := some [("table_name", .str "product_tags")]
  attributes := [numberColumn "product_id" false none, numberColumn "tag_id" false none]

/-- The models in the order in which they are defined. -/
def catalogue : List Definition := [category, product, tag, productTag]

/-- The registry with the models of the catalogue. -/
def registry : Registry :=
  ((catalogue.forM fun d => discard (World.define d)).runOn {}).2.registry

/-- The number of a model; all models of the catalogue have one. -/
def modelOf (d : Definition) : Nat := ((registry.find d.key).toOption).getD 0

/-- Makes the tables of the catalogue. -/
def createTables : Action World Unit := World.createTables false (catalogue.map modelOf)

end RowMapper.Shop
