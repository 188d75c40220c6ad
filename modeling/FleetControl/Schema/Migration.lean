import FleetControl.Digest.Sha256
import FleetControl.Text.Integer

/-!
The steps that bring a database to the schema that the store expects, in the order in which they are
to be taken.
-/

namespace FleetControl

structure Migration where
  version : Int
  title : String
  script : String

namespace Migration

def name (m : Migration) : String := String.ofList (Text.ofInt m.version) ++ "_" ++ m.title

def checksum (m : Migration) : List UInt8 := Sha256.digest m.script.toUTF8.toList

def initialSchema : Migration := ⟨20240601000001, "initial_schema",
"-- Products: tenant boundary. Product 1 is the built-in infrastructure product.
CREATE TABLE IF NOT EXISTS products (
    id BIGSERIAL PRIMARY KEY,
    name TEXT NOT NULL UNIQUE,
    description TEXT NOT NULL DEFAULT '',
    mail_list JSONB NOT NULL DEFAULT '[]',
    contact JSONB NOT NULL DEFAULT '[]',
    created_at TIMESTAMPTZ NOT NULL DEFAULT CURRENT_TIMESTAMP,
    updated_at TIMESTAMPTZ NOT NULL DEFAULT CURRENT_TIMESTAMP
);

INSERT INTO products (id, name, description)
VALUES (1, 'BFE', 'load balancer infrastructure')
ON CONFLICT (id) DO NOTHING;

SELECT setval(pg_get_serial_sequence('products', 'id'), GREATEST((SELECT MAX(id) FROM products), 1));

-- Backend instance pools
CREATE TABLE IF NOT EXISTS pools (
    id BIGSERIAL PRIMARY KEY,
    name TEXT NOT NULL UNIQUE,
    product_id BIGINT NOT NULL REFERENCES products(id),
    tag TEXT NOT NULL CHECK (tag IN ('bfe', 'product')),
    pool_type TEXT NOT NULL CHECK (pool_type IN ('static', 'registry')),
    instances JSONB NOT NULL DEFAULT '[]',
    created_at TIMESTAMPTZ NOT NULL DEFAULT CURRENT_TIMESTAMP,
    updated_at TIMESTAMPTZ NOT NULL DEFAULT CURRENT_TIMESTAMP
);

CREATE INDEX IF NOT EXISTS idx_pools_product ON pools(product_id);

-- Load balancer deployment units
CREATE TABLE IF NOT EXISTS bfe_clusters (
    id BIGSERIAL PRIMARY KEY,
    name TEXT NOT NULL UNIQUE,
    pool_id BIGINT NOT NULL REFERENCES pools(id),
    capacity BIGINT NOT NULL DEFAULT 0,
    enabled BOOLEAN NOT NULL DEFAULT TRUE,
    created_at TIMESTAMPTZ NOT NULL DEFAULT CURRENT_TIMESTAMP
);

-- Service clusters; names are unique fleet-wide
CREATE TABLE IF NOT EXISTS clusters (
    id BIGSERIAL PRIMARY KEY,
    name TEXT NOT NULL UNIQUE,
    product_id BIGINT NOT NULL REFERENCES products(id),
    description TEXT NOT NULL DEFAULT '',
    basic JSONB NOT NULL,
    sticky_sessions JSONB NOT NULL,
    passive_health_check JSONB NOT NULL,
    created_at TIMESTAMPTZ NOT NULL DEFAULT CURRENT_TIMESTAMP,
    updated_at TIMESTAMPTZ NOT NULL DEFAULT CURRENT_TIMESTAMP
);

CREATE INDEX IF NOT EXISTS idx_clusters_product ON clusters(product_id);

-- Sub-clusters; names are unique per product
CREATE TABLE IF NOT EXISTS sub_clusters (
    id BIGSERIAL PRIMARY KEY,
    name TEXT NOT NULL,
    product_id BIGINT NOT NULL REFERENCES products(id),
    description TEXT NOT NULL DEFAULT '',
    pool_id BIGINT NOT NULL REFERENCES pools(id),
    cluster_id BIGINT REFERENCES clusters(id),
    created_at TIMESTAMPTZ NOT NULL DEFAULT CURRENT_TIMESTAMP,
    updated_at TIMESTAMPTZ NOT NULL DEFAULT CURRENT_TIMESTAMP,
    UNIQUE (product_id, name)
);

CREATE INDEX IF NOT EXISTS idx_sub_clusters_cluster ON sub_clusters(cluster_id);
CREATE INDEX IF NOT EXISTS idx_sub_clusters_pool ON sub_clusters(pool_id);

-- LB matrix per cluster, stored as the exported JSON document
CREATE TABLE IF NOT EXISTS lb_matrices (
    cluster_id BIGINT PRIMARY KEY REFERENCES clusters(id) ON DELETE CASCADE,
    product_id BIGINT NOT NULL REFERENCES products(id),
    lb_matrix TEXT NOT NULL,
    updated_at TIMESTAMPTZ NOT NULL DEFAULT CURRENT_TIMESTAMP
);

-- Hostnames; names are unique fleet-wide
CREATE TABLE IF NOT EXISTS domains (
    id BIGSERIAL PRIMARY KEY,
    name TEXT NOT NULL UNIQUE,
    product_id BIGINT NOT NULL REFERENCES products(id),
    using_advanced_redirect BOOLEAN NOT NULL DEFAULT FALSE,
    using_advanced_hsts BOOLEAN NOT NULL DEFAULT FALSE,
    created_at TIMESTAMPTZ NOT NULL DEFAULT CURRENT_TIMESTAMP
);

CREATE INDEX IF NOT EXISTS idx_domains_product ON domains(product_id);

-- Route rules, ordered by position within a product
CREATE TABLE IF NOT EXISTS basic_route_rules (
    id BIGSERIAL PRIMARY KEY,
    product_id BIGINT NOT NULL REFERENCES products(id),
    position INTEGER NOT NULL,
    host_names JSONB NOT NULL DEFAULT '[]',
    paths JSONB NOT NULL DEFAULT '[]',
    cluster_id BIGINT REFERENCES clusters(id),
    cluster_name TEXT NOT NULL,
    description TEXT NOT NULL DEFAULT '',
    UNIQUE (product_id, position)
);

CREATE TABLE IF NOT EXISTS advanced_route_rules (
    id BIGSERIAL PRIMARY KEY,
    product_id BIGINT NOT NULL REFERENCES products(id),
    position INTEGER NOT NULL,
    name TEXT NOT NULL,
    expression TEXT NOT NULL,
    cluster_id BIGINT REFERENCES clusters(id),
    cluster_name TEXT NOT NULL,
    description TEXT NOT NULL DEFAULT '',
    UNIQUE (product_id, position)
);

CREATE INDEX IF NOT EXISTS idx_basic_route_rules_cluster ON basic_route_rules(cluster_id);
CREATE INDEX IF NOT EXISTS idx_advanced_route_rules_cluster ON advanced_route_rules(cluster_id);

-- TLS server certificates; at most one default
CREATE TABLE IF NOT EXISTS certificates (
    id BIGSERIAL PRIMARY KEY,
    name TEXT NOT NULL UNIQUE,
    description TEXT NOT NULL DEFAULT '',
    is_default BOOLEAN NOT NULL DEFAULT FALSE,
    cert_file_path TEXT NOT NULL,
    key_file_path TEXT NOT NULL,
    expired_date TEXT NOT NULL DEFAULT '',
    created_at TIMESTAMPTZ NOT NULL DEFAULT CURRENT_TIMESTAMP
);

CREATE UNIQUE INDEX IF NOT EXISTS idx_certificates_single_default ON certificates(is_default) WHERE is_default;

-- Append-only ledger of exported config versions
CREATE TABLE IF NOT EXISTS config_versions (
    id BIGSERIAL PRIMARY KEY,
    topic TEXT NOT NULL,
    signature TEXT NOT NULL,
    version TEXT NOT NULL,
    created_at TIMESTAMPTZ NOT NULL DEFAULT CURRENT_TIMESTAMP
);

CREATE INDEX IF NOT EXISTS idx_config_versions_topic ON config_versions(topic, id DESC);
"⟩

def all : List Migration := [initialSchema]

end Migration
end FleetControl
