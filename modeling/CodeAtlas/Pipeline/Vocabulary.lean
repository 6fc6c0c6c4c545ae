import CodeAtlas.Data.Access
import CodeAtlas.Model.Basic

/-! # Vocabularies

The names by which a call is recognised as a stage: one set of names for each tag. The sets may
share names; such a name makes one stage for each of its tags.
-/

namespace CodeAtlas

/-- Sets of operation names, as lists without repetition. -/
structure Vocabulary where
  sources : List String
  transformations : List String
  sinks : List String
  deriving DecidableEq, Repr

namespace Vocabulary

/-- The names of the operations of the Spark library. -/
def standard : Vocabulary where
  sources := ["read", "readStream", "readText", "csv", "json", "parquet", "orc", "jdbc"]
  transformations := [
    "select", "filter", "where", "groupBy", "agg", "join", "withColumn", "map",
    "flatMap", "reduce", "transform", "sort", "orderBy", "limit", "dropDuplicates",
    "union", "intersect", "subtract", "cache", "persist", "unpersist", "repartition",
    "coalesce", "sample", "rdd", "toDF", "createOrReplaceTempView", "window"]
  sinks := [
    "write", "writeStream", "save", "saveAsTable", "insertInto", "csv", "json", "parquet",
    "orc", "jdbc", "text", "format", "mode", "option", "options", "partitionBy", "bucketBy"]

def namesFor (v : Vocabulary) : StageTag → List String
  | .source => v.sources
  | .transformation => v.transformations
  | .sink => v.sinks

def tagsFor (v : Vocabulary) (operation : String) : List StageTag :=
  StageTag.all.filter fun tag => (v.namesFor tag).contains operation

end Vocabulary

end CodeAtlas
