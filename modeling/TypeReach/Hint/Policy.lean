import TypeReach.Keyed
import TypeReach.TypeName

/-!
# Hint policies

A policy says what is done with the types that an annotation lists: whether
its host is skipped when one of them is missing, whether they are followed as
units of their own, and which further types are treated as listed.
-/

namespace TypeReach.Hint

/-- What is done with the types of an annotation. -/
structure Policy where
  skipIfMissing : Bool := false
  follow : Bool := false
  /-- Further types, as they are written. -/
  names : List String := []
  deriving DecidableEq, Repr

/-- Policies by the types that they apply to. -/
structure PolicyTable where
  entries : List (TypeName × Policy)
  deriving DecidableEq, Repr

namespace PolicyTable

def empty : PolicyTable := ⟨[]⟩

def size (table : PolicyTable) : Nat := table.entries.length

def isEmpty (table : PolicyTable) : Bool := table.entries.isEmpty

def get? (table : PolicyTable) (type : TypeName) : Option Policy :=
  Keyed.get? type table.entries

/-- Add a policy, in the place of an earlier one for the same type. -/
def insert (table : PolicyTable) (type : TypeName) (policy : Policy) : PolicyTable :=
  ⟨Keyed.set type policy table.entries⟩

/-- The configurations that the cache selector may choose from. -/
def cacheConfigurations : List String :=
  ["Generic", "EhCache", "Hazelcast", "Infinispan", "JCache", "Couchbase", "Redis",
    "Caffeine", "Simple", "NoOp"].map fun kind =>
      "org.springframework.boot.autoconfigure.cache." ++ kind ++ "CacheConfiguration"

/-- The configurations that the transaction selector may choose from. -/
def transactionConfigurations : List String :=
  ["org.springframework.context.annotation.AutoProxyRegistrar",
    "org.springframework.transaction.annotation.ProxyTransactionManagementConfiguration",
    "org.springframework.transaction.aspectj.AspectJJtaTransactionManagementConfiguration",
    "org.springframework.transaction.aspectj.AspectJTransactionManagementConfiguration"]

/-- The policies that are always there unless they are replaced. -/
def builtin : PolicyTable where
  entries :=
    [(⟨"org/springframework/boot/autoconfigure/condition/ConditionalOnClass"⟩,
        { skipIfMissing := true }),
      (⟨"org/springframework/boot/autoconfigure/condition/ConditionalOnMissingBean"⟩,
        { skipIfMissing := true }),
      (⟨"org/springframework/context/annotation/Import"⟩, { follow := true }),
      (⟨"org/springframework/context/annotation/Conditional"⟩, {}),
      (⟨"org/springframework/boot/context/properties/EnableConfigurationProperties"⟩, {}),
      (⟨"org/springframework/boot/autoconfigure/cache/" ++
          "CacheAutoConfiguration$CacheConfigurationImportSelector"⟩,
        { names := cacheConfigurations }),
      (⟨"org/springframework/transaction/annotation/TransactionManagementConfigurationSelector"⟩,
        { skipIfMissing := true, follow := true, names := transactionConfigurations }),
      (⟨"org/springframework/data/web/config/" ++
          "EnableSpringDataWebSupport$SpringDataWebConfigurationImportSelector"⟩,
        { skipIfMissing := true, follow := true,
          names :=
            ["org.springframework.data.web.config.HateoasAwareSpringDataWebConfiguration",
              "org.springframework.data.web.config.SpringDataWebConfiguration"] }),
      (⟨"org/springframework/data/web/config/EnableSpringDataWebSupport$QuerydslActivator"⟩,
        { skipIfMissing := true, follow := true,
          names := ["org.springframework.data.web.config.QuerydslWebConfiguration"] }),
      (⟨"org/springframework/boot/context/properties/" ++
          "EnableConfigurationPropertiesImportSelector"⟩,
        { names :=
            ["org.springframework.boot.context.properties." ++
                "EnableConfigurationPropertiesImportSelector$ConfigurationPropertiesBeanRegistrar",
              "org.springframework.boot.context.properties." ++
                "ConfigurationPropertiesBindingPostProcessorRegistrar"] }),
      (⟨"org/springframework/context/annotation/AdviceModeImportSelector"⟩,
        { skipIfMissing := true, follow := true }),
      (⟨"org/springframework/security/config/annotation/web/configuration/" ++
          "SpringWebMvcImportSelector"⟩,
        { follow := true,
          names :=
            ["org.springframework.web.servlet.DispatcherServlet",
              "org.springframework.security.config.annotation.web.configuration." ++
                "WebMvcSecurityConfiguration"] }),
      (⟨"org/springframework/security/config/annotation/web/configuration/OAuth2ImportSelector"⟩,
        { follow := true,
          names :=
            ["org.springframework.security.oauth2.client.registration.ClientRegistration",
              "org.springframework.security.config.annotation.web.configuration." ++
                "OAuth2ClientConfiguration"] })]

end PolicyTable

end TypeReach.Hint
