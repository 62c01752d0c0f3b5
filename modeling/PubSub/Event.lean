import PubSub.Error
import PubSub.TopicCache

/-!
# Events

What is logged as a warning or an error.
-/

namespace PubSub

inductive Event where
  | cache (notice : CacheNotice)
  | transportError (error : Error)
  | truncatedRecord (error : Error)
  | partialRecordKept (topic : String) (error : SystemError)
  | closingFailed (topic : String) (error : Error)
  deriving DecidableEq, Repr

def Event.text : Event → String
  | .cache .readRecovered => "WARN topic cache read lock was poisoned, recovering"
  | .cache .writeRecovered => "WARN topic cache write lock was poisoned, recovering"
  | .transportError e => "ERROR subscription transport error error=" ++ e.message
  | .truncatedRecord e => "WARN truncated record at end of file error=" ++ e.message
  | .partialRecordKept topic e =>
    "WARN cannot remove partial record topic=" ++ topic ++ " error=" ++ e.message
  | .closingFailed topic e =>
    "WARN closing topic file failed topic=" ++ topic ++ " error=" ++ e.message

end PubSub
